import Mathlib.Data.List.Nodup
import TagTemplate.Proofs.FileSystem

/-!
# Folders and the order of their entries

A folder has each name once, and lists its entries in any order. Main statements:
`FileTree.DistinctNames.mem_files_iff`, the files of a tree are what stands at its places, each of
them listed once (`nodup_places`); `FileTree.Rearranged.sameAt`, trees that differ only in the order
of entries have the same at every place; `FileSystem.find?_sameAt`, then a path leads to the same in
both.
-/

namespace TagTemplate

namespace FileTree

/-- No folder has two entries of one name. -/
inductive DistinctNames : FileTree → Prop
  | file (content : Content) : DistinctNames (.file content)
  | folder {entries : List (String × FileTree)} : (entries.map (·.1)).Nodup →
      (∀ entry ∈ entries, DistinctNames entry.2) → DistinctNames (.folder entries)

/-- The same tree, but that folders may list their entries in another order. -/
inductive Rearranged : FileTree → FileTree → Prop
  | refl (t : FileTree) : Rearranged t t
  | listed {entries entries' : List (String × FileTree)} : entries.Perm entries' →
      Rearranged (.folder entries) (.folder entries')
  | inside {front back : List (String × FileTree)} {name : String} {t t' : FileTree} :
      Rearranged t t' → Rearranged (.folder (front ++ (name, t) :: back))
        (.folder (front ++ (name, t') :: back))
  | trans {t t' t'' : FileTree} : Rearranged t t' → Rearranged t' t'' → Rearranged t t''

/-- What a file holds; nothing for a folder. -/
def held? : FileTree → Option Content
  | .file content => some content
  | .folder _ => none

/-- At every place the trees have the same file, or a folder both of them, or nothing. -/
def SameAt (t t' : FileTree) : Prop :=
  ∀ place, (t.at? place).map held? = (t'.at? place).map held?

variable {t t' : FileTree} {entries entries' front back : List (String × FileTree)} {name : String}
  {place : Place} {content : Content}

/-! ## Entries -/

theorem mem_of_child? (h : child? name entries = some t) : (name, t) ∈ entries := by
  induction entries with
  | nil => cases h
  | cons entry rest ih =>
    obtain ⟨n, t'⟩ := entry
    rw [child?] at h
    split at h
    · next hn =>
      cases h
      exact hn ▸ List.mem_cons_self
    · exact List.mem_cons_of_mem _ (ih h)

theorem child?_of_mem (hnames : (entries.map (·.1)).Nodup) (h : (name, t) ∈ entries) :
    child? name entries = some t := by
  induction entries with
  | nil => cases h
  | cons entry rest ih =>
    obtain ⟨n, t'⟩ := entry
    obtain ⟨hfresh, hnames⟩ := List.nodup_cons.1 hnames
    rw [child?]
    rcases List.mem_cons.1 h with heq | h
    · cases heq
      exact if_pos rfl
    · have hne : n ≠ name := fun hn => hfresh (hn ▸ List.mem_map_of_mem (f := (·.1)) h)
      rw [if_neg hne, ih hnames h]

theorem child?_perm (hnames : (entries.map (·.1)).Nodup) (h : entries.Perm entries')
    (name : String) : child? name entries' = child? name entries := by
  have hnames' := (h.map (·.1)).nodup_iff.1 hnames
  refine Option.ext fun t => ⟨fun hchild => ?_, fun hchild => ?_⟩
  · exact child?_of_mem hnames (h.mem_iff.2 (mem_of_child? hchild))
  · exact child?_of_mem hnames' (h.mem_iff.1 (mem_of_child? hchild))

theorem child?_append (name : String) (front back : List (String × FileTree)) :
    child? name (front ++ back) = (child? name front).or (child? name back) := by
  induction front with
  | nil => rfl
  | cons entry front ih =>
    obtain ⟨n, t⟩ := entry
    rw [List.cons_append, child?, child?]
    split
    · rfl
    · exact ih

theorem filesOfEntries_eq (entries : List (String × FileTree)) : filesOfEntries entries =
    entries.flatMap fun entry => entry.2.files.map fun f => (entry.1 :: f.1, f.2) := by
  induction entries with
  | nil => rfl
  | cons entry rest ih => rw [filesOfEntries, ih, List.flatMap_cons]

theorem mem_filesOfEntries_iff : (place, content) ∈ filesOfEntries entries ↔
    ∃ name t rest, (name, t) ∈ entries ∧ place = name :: rest ∧ (rest, content) ∈ t.files := by
  rw [filesOfEntries_eq, List.mem_flatMap]
  constructor
  · rintro ⟨⟨name, t⟩, hentry, hfile⟩
    obtain ⟨⟨rest, inside⟩, hinside, heq⟩ := List.mem_map.1 hfile
    cases heq
    exact ⟨name, t, rest, hentry, rfl, hinside⟩
  · rintro ⟨name, t, rest, hentry, rfl, hfile⟩
    exact ⟨(name, t), hentry, List.mem_map.2 ⟨(rest, content), hfile, rfl⟩⟩

/-! ## What stands at a place -/

namespace SameAt

theorem at?_none (h : t.SameAt t') (hplace : t.at? place = none) : t'.at? place = none := by
  have hheld := h place
  rwa [hplace, Option.map_none, eq_comm, Option.map_eq_none_iff] at hheld

theorem at?_some {u : FileTree} (h : t.SameAt t') (hplace : t.at? place = some u) :
    ∃ u', t'.at? place = some u' ∧ u.SameAt u' := by
  have hheld := h place
  rw [hplace, Option.map_some, eq_comm] at hheld
  obtain ⟨u', hplace', -⟩ := Option.map_eq_some_iff.1 hheld
  refine ⟨u', hplace', fun inside => ?_⟩
  have hinside := h (place ++ inside)
  rwa [at?_append, at?_append, hplace, hplace'] at hinside

theorem file (h : (FileTree.file content).SameAt t') : t' = .file content := by
  cases t' with
  | file content' => exact congrArg _ (Option.some.inj (Option.some.inj (h []))).symm
  | folder entries' => cases h []

theorem folder (h : (FileTree.folder entries).SameAt t') : ∃ entries', t' = .folder entries' ∧
    ∀ name, (child? name entries').isSome = (child? name entries).isSome := by
  cases t' with
  | file content' => cases h []
  | folder entries' =>
    refine ⟨entries', rfl, fun name => ?_⟩
    simpa [FileTree.at?] using (congrArg Option.isSome (h [name])).symm

theorem symm (h : t.SameAt t') : t'.SameAt t := fun place => (h place).symm

theorem at?_file_iff (h : t.SameAt t') :
    t'.at? place = some (.file content) ↔ t.at? place = some (.file content) := by
  have hfile {t t' : FileTree} (h : t.SameAt t') (hplace : t.at? place = some (.file content)) :
      t'.at? place = some (.file content) := by
    obtain ⟨u, hplace', hsame⟩ := h.at?_some hplace
    rw [hplace', hsame.file]
  exact ⟨hfile h.symm, hfile h⟩

end SameAt

/-! ## Trees with distinct names -/

namespace DistinctNames

theorem at? (h : t.DistinctNames) (hplace : t.at? place = some t') : t'.DistinctNames := by
  induction place generalizing t with
  | nil =>
    cases hplace
    exact h
  | cons name place ih =>
    cases h with
    | file => cases hplace
    | folder hnames hentries =>
      obtain ⟨child, hchild, hplace⟩ := Option.bind_eq_some_iff.1 hplace
      exact ih (hentries _ (mem_of_child? hchild)) hplace

/-- The files of a tree are what stands at its places. -/
theorem mem_files_iff (h : t.DistinctNames) :
    (place, content) ∈ t.files ↔ t.at? place = some (.file content) := by
  refine ⟨fun hmem => ?_, mem_files_of_at?⟩
  induction h generalizing place with
  | file other =>
    cases List.mem_singleton.1 hmem
    rfl
  | folder hnames _ ih =>
    obtain ⟨name, t, rest, hentry, rfl, hinside⟩ := mem_filesOfEntries_iff.1 hmem
    rw [FileTree.at?, child?_of_mem hnames hentry, Option.bind_some]
    exact ih _ hentry hinside

/-- No place is listed twice. -/
theorem nodup_places (h : t.DistinctNames) : (t.files.map (·.1)).Nodup := by
  induction h with
  | file content => exact List.nodup_singleton _
  | @folder entries hnames _ ih =>
    rw [files, filesOfEntries_eq, List.map_flatMap, List.nodup_flatMap]
    constructor
    · intro entry hentry
      have hinside := (ih entry hentry).map (List.cons_injective (a := entry.1))
      simpa [List.map_map, Function.comp_def] using hinside
    · refine (List.pairwise_map.1 hnames).imp fun {entry entry'} hne place hmem hmem' => ?_
      -- a place begins with the name of the entry that it is in
      obtain ⟨f, hf, rfl⟩ := List.mem_map.1 hmem
      obtain ⟨f', hf', hplace⟩ := List.mem_map.1 hmem'
      obtain ⟨_, -, rfl⟩ := List.mem_map.1 hf
      obtain ⟨_, -, rfl⟩ := List.mem_map.1 hf'
      exact hne (List.cons.inj hplace).1.symm

end DistinctNames

namespace Rearranged

theorem distinctNames (h : t.Rearranged t') (hnames : t.DistinctNames) : t'.DistinctNames := by
  induction h with
  | refl => exact hnames
  | listed hperm =>
    obtain _ | ⟨hnames, hentries⟩ := hnames
    exact .folder ((hperm.map (·.1)).nodup_iff.1 hnames) fun entry hentry =>
      hentries entry (hperm.mem_iff.2 hentry)
  | @inside front back name t t' _ ih =>
    obtain _ | ⟨hnames, hentries⟩ := hnames
    refine .folder (by simpa using hnames) fun entry hentry => ?_
    rcases List.mem_append.1 hentry with hentry | hentry
    · exact hentries entry (List.mem_append_left _ hentry)
    · rcases List.mem_cons.1 hentry with rfl | hentry
      · exact ih (hentries (name, t) (List.mem_append_right _ List.mem_cons_self))
      · exact hentries entry (List.mem_append_right _ (List.mem_cons_of_mem _ hentry))
  | trans _ _ ih ih' => exact ih' (ih hnames)

/-- The order of entries does not matter to what stands at a place. -/
theorem sameAt (h : t.Rearranged t') (hnames : t.DistinctNames) : t.SameAt t' := by
  induction h with
  | refl => exact fun _ => rfl
  | listed hperm =>
    obtain _ | ⟨hnames, -⟩ := hnames
    rintro (_ | ⟨name, place⟩)
    · rfl
    · rw [at?, at?, child?_perm hnames hperm]
  | @inside front back name t t' _ ih =>
    obtain _ | ⟨-, hentries⟩ := hnames
    have ih := ih (hentries (name, t) (List.mem_append_right _ List.mem_cons_self))
    rintro (_ | ⟨other, place⟩)
    · rfl
    · rw [at?, at?, child?_append, child?_append, child?, child?]
      cases child? other front with
      | some found => rfl
      | none =>
        split
        · exact ih place
        · rfl
  | trans hfirst _ ih ih' =>
    exact fun place => (ih hnames place).trans (ih' (hfirst.distinctNames hnames) place)

end Rearranged

end FileTree

/-! ## Paths -/

namespace FileSystem

variable {fs : FileSystem} {top top' : FileTree}

theorem step_sameAt (h : top.SameAt top') (place : Place) (segment : String) :
    step top' place segment = step top place segment := by
  rw [step, step]
  cases hplace : top.at? place with
  | none => rw [h.at?_none hplace]
  | some t =>
    obtain ⟨t', hplace', hsame⟩ := h.at?_some hplace
    rw [hplace']
    cases t with
    | file content => rw [hsame.file]
    | folder entries =>
      obtain ⟨entries', rfl, hchild⟩ := hsame.folder
      simp only [hchild]

theorem walk_sameAt (h : top.SameAt top') (segments : List String) (place : Place) :
    walk top' place segments = walk top place segments := by
  induction segments generalizing place with
  | nil => rfl
  | cons segment segments ih => simp only [walk, step_sameAt h, ih]

theorem locate_sameAt (h : fs.top.SameAt top) (p : Path) :
    { fs with top }.locate p = fs.locate p := by
  rw [locate, locate]
  exact congrArg (fs.start p >>= ·) (funext fun place => walk_sameAt h p.segments place)

/-- A path leads nowhere for the same reason, or to the same. -/
theorem find?_sameAt (h : fs.top.SameAt top) (p : Path) :
    (∃ fault, fs.find? p = .error fault ∧ { fs with top }.find? p = .error fault) ∨
      ∃ t t', fs.find? p = .ok t ∧ { fs with top }.find? p = .ok t' ∧ t.SameAt t' := by
  rw [find?, find?, locate_sameAt h]
  cases fs.locate p with
  | error fault => exact .inl ⟨fault, rfl, rfl⟩
  | ok place =>
    simp only [ok_bind]
    cases hplace : fs.top.at? place with
    | none => exact .inl ⟨.missing, rfl, by rw [h.at?_none hplace]; rfl⟩
    | some t =>
      obtain ⟨t', hplace', hsame⟩ := h.at?_some hplace
      exact .inr ⟨t, t', rfl, by rw [hplace']; rfl, hsame⟩

theorem present_sameAt (h : fs.top.SameAt top) (p : Path) :
    { fs with top }.present p = fs.present p := by
  rw [present, present]
  rcases find?_sameAt h p with ⟨fault, hfind, hfind'⟩ | ⟨t, t', hfind, hfind', -⟩ <;>
    rw [hfind, hfind']

theorem read_sameAt (h : fs.top.SameAt top) (p : Path) :
    { fs with top }.read p = fs.read p := by
  rw [read, read]
  rcases find?_sameAt h p with ⟨fault, hfind, hfind'⟩ | ⟨t, t', hfind, hfind', hsame⟩
  · rw [hfind, hfind']
  · rw [hfind, hfind']
    cases t with
    | file content => rw [hsame.file]
    | folder entries =>
      obtain ⟨entries', rfl, -⟩ := hsame.folder
      rfl

theorem hasFile_sameAt (h : fs.top.SameAt top) (p : Path) :
    { fs with top }.hasFile p = fs.hasFile p := by
  rw [hasFile, hasFile]
  rcases find?_sameAt h p with ⟨fault, hfind, hfind'⟩ | ⟨t, t', hfind, hfind', hsame⟩
  · rw [hfind, hfind']
  · rw [hfind, hfind']
    cases t with
    | file content => rw [hsame.file]
    | folder entries =>
      obtain ⟨entries', rfl, -⟩ := hsame.folder
      rfl

end FileSystem

end TagTemplate
