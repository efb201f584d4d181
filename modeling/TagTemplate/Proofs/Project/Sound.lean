import TagTemplate.Proofs.Engine.Faithful
import TagTemplate.Proofs.Engine.Guarded
import TagTemplate.Proofs.Project.Partials

/-!
# Projects without errors

What a check finds out about a project holds for its renderings. Main statement:
`checked_template_renders`, in a project without errors a template is rendered with any view
without callables, or fails at the ceiling; and without warnings every text that it includes is
there.
-/

namespace TagTemplate

/-! ## Files -/

namespace CheckedFile

variable {d : Delimiters} {f : CheckedFile}

theorem error?_eq_none_iff : f.error? d = none ↔
    ∃ text nodes, f.content.read = .ok text ∧ parse d text = .ok nodes := by
  rw [error?]
  cases hread : f.content.read with
  | error fault => simp
  | ok text =>
    simp only
    cases hparse : parse d text <;> simp [hparse]

theorem included_eq {text : String} {nodes : List Node} (hread : f.content.read = .ok text)
    (hparse : parse d text = .ok nodes) : f.included d = includedNames nodes := by
  rw [included, hread]
  simp only [hparse]
  rfl

end CheckedFile

theorem mem_sortedNames {name : String} {names : List String} :
    name ∈ sortedNames names ↔ name ∈ names := by
  rw [sortedNames, List.mem_mergeSort, List.mem_eraseDups]

theorem checkedFiles?_eq {fs : FileSystem} {folder : Path} {extension : String}
    {files : List CheckedFile} (h : checkedFiles fs folder extension = .ok files) :
    checkedFiles? fs folder extension = .ok (some files) := by
  obtain ⟨all, hall, -⟩ := bind_eq_ok h
  rw [checkedFiles?, if_pos (FileSystem.present_of_filesBelow hall), h]
  rfl

/-! ## Projects -/

/-- A folder with settings that can be had. -/
structure Project where
  files : FileSystem
  /-- The path of the folder; the empty one, which no command takes, denotes none. -/
  root : String
  settings : Settings
  delimiters : Delimiters
  rooted : root ≠ ""
  loaded : Settings.loadOrDefault files (.ofText root) = .ok settings
  paired : settings.delimiters? = .ok delimiters

namespace Project

variable (p : Project)

def folder : Path := .ofText p.root

/-- Where the texts to include are. -/
def partials : PartialFolder :=
  ⟨p.settings.partialsFolder p.folder, p.settings.partials.extension⟩

/-- A check goes through the file, among the templates. -/
def HasTemplate (f : CheckedFile) : Prop :=
  ∃ files, checkedFiles p.files (p.settings.templatesFolder p.folder)
    p.settings.templates.extension = .ok files ∧ f ∈ files

/-- A check goes through the file, among the texts to include. -/
def HasPartial (f : CheckedFile) : Prop :=
  ∃ files, checkedFiles p.files p.partials.root p.partials.extension = .ok files ∧ f ∈ files

/-- A check goes through the file. -/
def Checks (f : CheckedFile) : Prop := p.HasTemplate f ∨ p.HasPartial f

/-- Some file includes a text by this name. -/
def Known (name : String) : Prop := ∃ f, p.Checks f ∧ name ∈ f.included p.delimiters

/-- The delimiters hold no white space, the texts to include have an extension in one piece, and
their names are plain. -/
structure Orderly : Prop where
  blankFree : p.delimiters.BlankFree
  extension : PlainExtension p.settings.partials.extension
  names : ∀ f, p.Checks f → ∀ name ∈ f.included p.delimiters, PlainName name

variable {p} {report : Report} {f : CheckedFile} {name : String}

/-- A check comes to the report on the files that it goes through. -/
theorem check_eq_ok (h : check p.files p.folder = .ok report) :
    ∃ templates partials,
      (∀ f, p.Checks f → f ∈ templates.getD [] ++ partials.getD []) ∧
      report = reportOn p.files p.settings p.folder p.delimiters templates partials := by
  rw [check, show Settings.loadOrDefault p.files p.folder = _ from p.loaded] at h
  simp only [p.paired] at h
  obtain ⟨templates, htemplates, h⟩ := bind_eq_ok h
  obtain ⟨partials, hpartials, h⟩ := bind_eq_ok h
  refine ⟨templates, partials, ?_, (Except.ok.inj h).symm⟩
  rintro f (⟨files, hfiles, hf⟩ | ⟨files, hfiles, hf⟩)
  · rw [checkedFiles?_eq hfiles] at htemplates
    cases htemplates
    exact List.mem_append_left _ hf
  · have hpartials' : checkedFiles? p.files (p.settings.partialsFolder p.folder)
        p.settings.partials.extension = .ok (some files) := checkedFiles?_eq hfiles
    rw [hpartials'] at hpartials
    cases hpartials
    exact List.mem_append_right _ hf

/-- What is wrong with a file that a check goes through is reported. -/
theorem error_reported (h : check p.files p.folder = .ok report) (hf : p.Checks f)
    {error : ProjectError} (herror : f.error? p.delimiters = some error) :
    error ∈ report.errors := by
  obtain ⟨templates, partials, hfiles, rfl⟩ := check_eq_ok h
  exact List.mem_append_right _ (List.mem_filterMap.2 ⟨f, hfiles f hf, herror⟩)

/-- A known name without a file is reported. -/
theorem warning_reported (h : check p.files p.folder = .ok report) (hname : p.Known name)
    (hmissing : p.files.hasFile (p.partials.path name) = false) :
    .noPartial name ∈ report.warnings := by
  obtain ⟨templates, partials, hfiles, rfl⟩ := check_eq_ok h
  obtain ⟨f, hf, hname⟩ := hname
  have hmem : name ∈ sortedNames ((templates.getD [] ++ partials.getD []).flatMap
      (·.included p.delimiters)) :=
    mem_sortedNames.2 (List.mem_flatMap.2 ⟨f, hfiles f hf, hname⟩)
  refine List.mem_append_right _ (List.mem_map_of_mem (List.mem_filter.2 ⟨hmem, ?_⟩))
  exact Bool.not_eq_true' _ ▸ hmissing

/-- In a project without errors every file can be read as a template. -/
theorem readable_of_check (h : check p.files p.folder = .ok report) (herrors : report.errors = [])
    (hf : p.Checks f) :
    ∃ text, f.content.read = .ok text ∧ Readable p.delimiters p.Known text := by
  have hnone : f.error? p.delimiters = none := by
    refine Option.eq_none_iff_forall_not_mem.2 fun error herror => ?_
    exact List.not_mem_nil (herrors ▸ error_reported h hf herror)
  obtain ⟨text, nodes, hread, hparse⟩ := CheckedFile.error?_eq_none_iff.1 hnone
  refine ⟨text, hread, nodes, hparse, fun name hname => ⟨f, hf, ?_⟩⟩
  rwa [CheckedFile.included_eq hread hparse]

/-- In a project without warnings every name that is included has a file. -/
theorem hasFile_of_check (h : check p.files p.folder = .ok report)
    (hwarnings : report.warnings = []) (hname : p.Known name) :
    p.files.hasFile (p.partials.path name) = true := by
  by_contra hmissing
  have hreported := warning_reported h hname (Bool.not_eq_true _ ▸ hmissing)
  exact List.not_mem_nil (hwarnings ▸ hreported)

theorem partials_root_isEmpty (p : Project) :
    p.partials.root.segments ≠ [] ∧ p.partials.root.isEmpty = false :=
  Path.join_isEmpty (Path.ofText_segments_ne _) (Path.ofText_isEmpty p.rooted)
    (Path.ofText_segments_ne _)

/-- The file that a known name stands for is one that a check goes through. -/
theorem hasPartial_of_find? (horderly : p.Orderly) (hname : p.Known name) {content : Content}
    (hfile : p.files.find? (p.partials.path name) = .ok (.file content)) :
    ∃ place, p.HasPartial ⟨place, content⟩ := by
  obtain ⟨f, hf, hname⟩ := hname
  obtain ⟨hroot, hempty⟩ := p.partials_root_isEmpty
  obtain ⟨files, place, hfiles, hmem⟩ := PartialFolder.mem_checkedFiles hroot hempty
    horderly.extension (horderly.names f hf name hname) hfile
  exact ⟨place, files, hfiles, hmem⟩

/-- In a project without errors every text that is included by a known name can be read as a
template. -/
theorem readable_inclusion (horderly : p.Orderly) (h : check p.files p.folder = .ok report)
    (herrors : report.errors = []) (hname : p.Known name) {text : String}
    (htext : p.partials.inclusions p.files name = some text) :
    Readable p.delimiters p.Known text := by
  obtain ⟨content, hfile, hcontent⟩ :=
    FileSystem.read_eq_ok_iff.1 (PartialFolder.inclusions_eq_some_iff.1 htext)
  obtain ⟨place, hpartial⟩ := hasPartial_of_find? horderly hname hfile
  obtain ⟨text', hread, hreadable⟩ := readable_of_check h herrors (.inr hpartial)
  rw [hcontent] at hread
  cases hread
  exact hreadable

/-- In a project without errors and warnings every known name stands for a text. -/
theorem inclusion_of_check (horderly : p.Orderly) (h : check p.files p.folder = .ok report)
    (herrors : report.errors = []) (hwarnings : report.warnings = []) (hname : p.Known name) :
    ∃ text, p.partials.inclusions p.files name = some text := by
  obtain ⟨content, hfile⟩ := FileSystem.hasFile_iff.1 (hasFile_of_check h hwarnings hname)
  obtain ⟨place, hpartial⟩ := hasPartial_of_find? horderly hname hfile
  obtain ⟨text, hread, -⟩ := readable_of_check h herrors (.inr hpartial)
  exact ⟨text, PartialFolder.inclusions_eq_some_iff.2
    (FileSystem.read_eq_ok_iff.2 ⟨content, hfile, hread⟩)⟩

theorem options?_eq_ok {options : Options} (h : p.settings.options? = .ok options) :
    options.delimiters = some p.delimiters ∧ options.ceiling = p.settings.ceiling := by
  rw [Settings.options?, p.paired, ok_bind] at h
  cases h
  exact ⟨rfl, rfl⟩

end Project

/-! ## Renderings -/

/-- In a project without errors a template that can be read meets no surprise, at a place without
callables. -/
theorem Project.guarded_of_check {p : Project} (horderly : p.Orderly) {report : Report}
    (hcheck : check p.files p.folder = .ok report) (herrors : report.errors = []) {σ : Type}
    {s : Setup σ} (hdelimiters : s.delimiters = p.delimiters)
    (hinclusions : s.inclusions = some (p.partials.inclusions p.files)) {here : Standpoint}
    (hplace : here.LambdaFree) {text : String} (htext : Readable p.delimiters p.Known text)
    (budget depth : Nat) : Guarded p.Known s.options.ceiling (fun _ => True)
      (s.renderPlainly budget here depth text) := by
  rw [← hdelimiters] at htext
  refine guarded_render (hdelimiters ▸ horderly.blankFree) ?_ ?_ budget hplace depth htext
  · rintro name ⟨f, hf, hname⟩
    exact (horderly.names f hf name hname).line
  · intro name hname inclusions hsome included hincluded
    obtain rfl : p.partials.inclusions p.files = inclusions :=
      Option.some.inj (hinclusions.symm.trans hsome)
    rw [hdelimiters]
    exact readable_inclusion horderly hcheck herrors hname hincluded

/-- In a project without errors, where the delimiters hold no white space and the included names are
plain, a template is rendered with any view without callables, or fails at the ceiling; and without
warnings every text that it includes is there. -/
theorem checked_template_renders {p : Project} (horderly : p.Orderly) {report : Report}
    (hcheck : check p.files p.folder = .ok report) (herrors : report.errors = [])
    {f : CheckedFile} (hf : p.HasTemplate f) {σ : Type} {e : Engine} {callables : Callables σ}
    {session : Session σ} (hreaches : e.Reaches callables session) {options : Options}
    (hoptions : p.settings.options? = .ok options) {view : Value} (hview : view.LambdaFree) :
    ∃ text, f.content.read = .ok text ∧ ∀ budget reply session',
      e.answer budget callables session
          (.render text view (some (p.partials.inclusions p.files)) options) =
        some (reply, session') →
      (∀ fault, reply = .error fault →
        ∃ limit, p.settings.ceiling = some limit ∧ fault = .tooDeep limit) ∧
      (report.warnings = [] → ∃ asked,
        session'.shelf.askedNames = asked ++ session.shelf.askedNames ∧
        ∀ name ∈ asked, ∃ included, p.partials.inclusions p.files name = some included) := by
  obtain ⟨text, hread, hreadable⟩ := Project.readable_of_check hcheck herrors (.inl hf)
  refine ⟨text, hread, ?_⟩
  intro budget reply session' hanswer
  obtain ⟨hdelimiters, hceiling⟩ := Project.options?_eq_ok hoptions
  let s : Setup σ :=
    { engine := e, options, inclusions := some (p.partials.inclusions p.files), callables }
  have hd : s.delimiters = p.delimiters := by rw [Setup.delimiters, hdelimiters, Option.getD_some]
  have hplace : Standpoint.LambdaFree ⟨view, []⟩ := List.forall_mem_singleton.2 hview
  have hguarded := Project.guarded_of_check horderly hcheck herrors hd rfl hplace hreadable budget 0
  have hplain := answer_plainReply s hreaches.sound budget text view
  rw [hanswer] at hplain
  obtain ⟨result, c, rfl, hrun, -, hasked, -⟩ := hplain.of_reply
  constructor
  · intro fault hfault
    cases result with
    | ok written => cases hfault
    | error fault' =>
      cases hfault
      obtain ⟨limit, hlimit, htooDeep⟩ := hguarded.fault hrun
      exact ⟨limit, hceiling ▸ hlimit, htooDeep⟩
  · intro hwarnings
    obtain ⟨asked, hnames, hknown⟩ := hguarded.asked hrun
    refine ⟨asked, hasked.trans hnames, fun name hname => ?_⟩
    exact Project.inclusion_of_check horderly hcheck herrors hwarnings (hknown name hname)

/-! ## An example -/

deriving instance DecidableEq for CheckedFile, Report

def sitePost : CheckedFile :=
  ⟨["post.mustache"], .text "a\n  \x7b\x7b>parts/item\x7d\x7d\n"⟩

/-- A text that includes itself at a margin, with a tag on two lines. -/
def siteItem : CheckedFile :=
  ⟨["parts", "item.mustache"], .text
    "\x7b\x7bv\x7d\x7d;\n\x7b\x7b#n\n\x7d\x7d\n \x7b\x7b>parts/item\x7d\x7d\n\x7b\x7b/n\x7d\x7d\n"⟩

def siteFiles : FileSystem where
  top := .folder [("site", .folder [
    ("templates", .folder [("post.mustache", .file sitePost.content)]),
    ("partials", .folder [("parts", .folder [("item.mustache", .file siteItem.content)])])])]

def site : Project where
  files := siteFiles
  root := "/site"
  settings := {}
  delimiters := .standard
  rooted := by decide
  loaded := by decide +kernel
  paired := by decide +kernel

theorem site_templates : checkedFiles site.files (site.settings.templatesFolder site.folder)
    site.settings.templates.extension = .ok [sitePost] := by decide +kernel

theorem site_partials : checkedFiles site.files site.partials.root site.partials.extension =
    .ok [siteItem] := by decide +kernel

theorem site_orderly : site.Orderly where
  blankFree := show Delimiters.standard.BlankFree by decide
  extension := show PlainExtension "mustache" by decide
  names := by
    have hplain : PlainName "parts/item" := by decide +kernel
    have hpost : sitePost.included site.delimiters = ["parts/item"] := by decide +kernel
    have hitem : siteItem.included site.delimiters = ["parts/item"] := by decide +kernel
    rintro f (⟨files, hfiles, hf⟩ | ⟨files, hfiles, hf⟩)
    · rw [site_templates] at hfiles
      cases hfiles
      rw [List.mem_singleton.1 hf, hpost]
      exact List.forall_mem_singleton.2 hplain
    · rw [site_partials] at hfiles
      cases hfiles
      rw [List.mem_singleton.1 hf, hitem]
      exact List.forall_mem_singleton.2 hplain

def siteView : Value :=
  .object [("n", .object [("n", .bool false), ("v", .int 2)]), ("v", .int 1)]

def siteReply : Option (Except Fault Reply × Session Unit) :=
  ({} : Engine).answer 4 .none (.fresh () fun _ => .root .null)
    (.render "a\n  \x7b\x7b>parts/item\x7d\x7d\n" siteView
      (some (site.partials.inclusions site.files)) { delimiters := some .standard })

/-- The template is rendered, two levels deep, and what it includes is there. -/
theorem checked_template_renders_site :
    site.Orderly ∧ check site.files site.folder = .ok {} ∧ site.HasTemplate sitePost ∧
    siteView.LambdaFree ∧ ∃ session', siteReply = some (.ok (.text "a\n  1;\n   2;\n"), session') ∧
      ∃ asked, session'.shelf.askedNames = asked ++ [] ∧
        ∀ name ∈ asked, ∃ included, site.partials.inclusions site.files name = some included := by
  have hcheck : check site.files site.folder = .ok {} := by decide +kernel
  have htemplate : site.HasTemplate sitePost :=
    ⟨_, site_templates, List.mem_singleton_self sitePost⟩
  have hinner : (Value.object [("n", .bool false), ("v", .int 2)]).LambdaFree :=
    .object (List.forall_mem_cons.2 ⟨.bool false, List.forall_mem_singleton.2 (.int 2)⟩)
  have hview : siteView.LambdaFree :=
    .object (List.forall_mem_cons.2 ⟨hinner, List.forall_mem_singleton.2 (.int 1)⟩)
  have hreaches : Engine.Reaches {} Callables.none (.fresh () fun _ => .root .null) := .fresh _ _
  have hoptions : site.settings.options? = .ok { delimiters := some .standard } := rfl
  have htext : siteReply.map (fun answer => replyText? answer.1) =
      some (some "a\n  1;\n   2;\n") := by decide +kernel
  obtain ⟨⟨reply, session'⟩, hreply, htext⟩ := Option.map_eq_some_iff.1 htext
  obtain rfl := replyText?_eq_some htext
  obtain ⟨text, hread, hrenders⟩ := checked_template_renders site_orderly hcheck rfl htemplate
    hreaches hoptions hview
  cases hread
  exact ⟨site_orderly, hcheck, htemplate, hview, session', hreply,
    (hrenders 4 _ _ hreply).2 rfl⟩

end TagTemplate
