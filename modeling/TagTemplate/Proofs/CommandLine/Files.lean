import TagTemplate.CommandLine.Program
import TagTemplate.Proofs.Writing

/-!
# Files that a command changes

A command reads all that it needs, and renders, before it writes anything. Main statement:
`runProgram_writes_output_only`, a command that fails leaves the files as they were, and one that
writes its output has rendered what was there before.
-/

namespace TagTemplate

variable {α β : Type}

/-! ## Parts of commands -/

namespace CommandM

/-- From some surroundings a part of a command ends with a result, or a failure, and others. -/
def Ends (x : CommandM α) (s : Surroundings) (result : Except Failure α) (s' : Surroundings) :
    Prop :=
  x.run.run s = some (result, s')

/-- However a part of a command ends, the files are as they were. -/
def KeepsFiles (x : CommandM α) : Prop :=
  ∀ s result s', x.Ends s result s' → s'.files = s.files

variable {x : CommandM α} {f : α → CommandM β} {s s' : Surroundings} {a : α}

theorem ends_pure_iff {result : Except Failure α} :
    (pure a : CommandM α).Ends s result s' ↔ result = .ok a ∧ s' = s := by
  have hrun : (pure a : CommandM α).run.run s = some (.ok a, s) := rfl
  rw [Ends, hrun, Option.some_inj, Prod.mk.injEq, eq_comm, eq_comm (a := s)]

/-- A failure ends all that would follow. -/
theorem ends_bind_iff {result : Except Failure β} : (x >>= f).Ends s result s' ↔
    (∃ failure, x.Ends s (.error failure) s' ∧ result = .error failure) ∨
      ∃ a s₁, x.Ends s (.ok a) s₁ ∧ (f a).Ends s₁ result s' := by
  simp only [Ends]
  have hbind : (x >>= f).run.run s = (x.run.run s).bind fun
      | (.ok a, s₁) => (f a).run.run s₁
      | (.error failure, s₁) => some (.error failure, s₁) := by
    rw [ExceptT.run_bind, StateT.run_bind]
    refine congrArg (Option.bind (x.run.run s)) (funext fun ⟨result, s₁⟩ => ?_)
    cases result <;> rfl
  rw [hbind]
  cases hx : x.run.run s with
  | none => simp
  | some ended =>
    obtain ⟨failure | a, s₁⟩ := ended
    · simp [eq_comm, and_comm]
    · simp

theorem ends_bind_ok_iff {b : β} : (x >>= f).Ends s (.ok b) s' ↔
    ∃ a s₁, x.Ends s (.ok a) s₁ ∧ (f a).Ends s₁ (.ok b) s' := by
  simp [ends_bind_iff]

theorem ends_get_bind_iff {f : Surroundings → CommandM β} {result : Except Failure β} :
    (get >>= f).Ends s result s' ↔ (f s).Ends s result s' :=
  .rfl

theorem ends_set_bind_iff {s₁ : Surroundings} {f : PUnit → CommandM β} {result : Except Failure β} :
    (set s₁ >>= f).Ends s result s' ↔ (f ⟨⟩).Ends s₁ result s' :=
  .rfl

theorem ends_orFail_iff {ε : Type} {failure : ε → Failure} {found : Except ε α}
    {result : Except Failure α} : (orFail failure found).Ends s result s' ↔
      result = found.mapError failure ∧ s' = s := by
  have hrun : (orFail failure found).run.run s = some (found.mapError failure, s) := by
    cases found <;> rfl
  rw [Ends, hrun, Option.some_inj, Prod.mk.injEq, eq_comm, eq_comm (a := s)]

theorem ends_orFail_bind_ok_iff {ε : Type} {failure : ε → Failure} {found : Except ε α} {b : β} :
    (orFail failure found >>= f).Ends s (.ok b) s' ↔
      ∃ a, found = .ok a ∧ (f a).Ends s (.ok b) s' := by
  cases found with
  | ok a => simp [ends_bind_ok_iff, ends_orFail_iff, Except.mapError]
  | error fault => simp [ends_bind_ok_iff, ends_orFail_iff, Except.mapError]

theorem mapError_eq_ok {ε : Type} {failure : ε → Failure} {found : Except ε α}
    (h : found.mapError failure = .ok a) : found = .ok a := by
  cases found with
  | ok b => exact congrArg _ (Except.ok.inj h)
  | error fault => cases h

namespace KeepsFiles

protected theorem pure (a : α) : KeepsFiles (pure a) := by
  intro s result s' h
  rw [(ends_pure_iff.1 h).2]

protected theorem bind (hx : x.KeepsFiles) (hf : ∀ a, (f a).KeepsFiles) :
    (x >>= f).KeepsFiles := by
  intro s result s' h
  rcases ends_bind_iff.1 h with ⟨failure, hx', -⟩ | ⟨a, s₁, hx', hf'⟩
  · exact hx _ _ _ hx'
  · exact (hf a _ _ _ hf').trans (hx _ _ _ hx')

protected theorem map (g : α → β) (hx : x.KeepsFiles) : KeepsFiles (g <$> x) := by
  rw [map_eq_pure_bind]
  exact hx.bind fun a => .pure (g a)

protected theorem get : KeepsFiles get := by
  intro s result s' h
  cases h
  rfl

protected theorem throw (failure : Failure) : KeepsFiles (throw failure : CommandM α) := by
  intro s result s' h
  cases h
  rfl

protected theorem orFail {ε : Type} (failure : ε → Failure) (found : Except ε α) :
    (orFail failure found).KeepsFiles := by
  intro s result s' h
  rw [(ends_orFail_iff.1 h).2]

protected theorem tell (record : LogRecord) : (tell record).KeepsFiles := by
  intro s result s' h
  cases h
  rfl

protected theorem print (text : String) : (print text).KeepsFiles := by
  intro s result s' h
  cases h
  rfl

protected theorem forM {γ : Type} {f : γ → CommandM PUnit} (hf : ∀ item, (f item).KeepsFiles)
    (items : List γ) : KeepsFiles (items.forM f) := by
  induction items with
  | nil => exact .pure _
  | cons item items ih => exact .bind (hf item) fun _ => ih

end KeepsFiles

end CommandM

/-! ## Reading -/

/-- What is left of the input when a path has been read. -/
def Path.inputBehind (p : Path) (input : Content) : Content :=
  if p.sameAs Command.inputPath then .text "" else input

/-- The text that a path gives a command: that of a file, or the input for a dash. -/
inductive Path.Gives (files : FileSystem) (input : Content) (p : Path) (text : String) : Prop
  | input : p.sameAs Command.inputPath = true → input = .text text → Gives files input p text
  | file : p.sameAs Command.inputPath = false → files.read p = .ok text → Gives files input p text

/-- The view that a path gives a command; without a path it has no fields. -/
inductive Path.GivesView (files : FileSystem) (input : Content) : Option Path → Value → Prop
  | none : GivesView files input none (.ofFields [])
  | toml {p : Path} {text : String} {view : Value} : p.Gives files input text →
      p.extension? = some "toml" → Value.ofTomlText? text = .ok view →
      GivesView files input (some p) view
  | json {p : Path} {text : String} {view : Value} : p.Gives files input text →
      p.extension? ≠ some "toml" → Value.ofJsonText? text = .ok view →
      GivesView files input (some p) view

theorem Content.read_eq_ok_iff {content : Content} {text : String} :
    content.read = .ok text ↔ content = .text text := by
  cases content <;> simp [Content.read]

namespace CommandM

variable {s s' : Surroundings} {path : Path} {text : String}

theorem readText_input (hpath : path.sameAs Command.inputPath = true)
    {result : Except Failure String} (h : (readText path).Ends s result s') :
    result = s.input.read.mapError .file ∧
      s' = if s.input = .bytes then s else { s with input := .text "" } := by
  unfold readText at h
  rw [ends_get_bind_iff, if_pos hpath] at h
  cases hinput : s.input <;>
    · rw [hinput] at h
      cases h
      exact ⟨rfl, rfl⟩

theorem readText_file (hpath : path.sameAs Command.inputPath = false)
    {result : Except Failure String} (h : (readText path).Ends s result s') :
    result = (s.files.read path).mapError (.unreadable path) ∧ s' = s := by
  unfold readText at h
  rw [ends_get_bind_iff, hpath, if_neg Bool.false_ne_true] at h
  exact ends_orFail_iff.1 h

protected theorem KeepsFiles.readText (path : Path) : (readText path).KeepsFiles := by
  intro s result s' h
  cases hpath : path.sameAs Command.inputPath with
  | true =>
    rw [(readText_input hpath h).2]
    split <;> rfl
  | false => rw [(readText_file hpath h).2]

/-- A text that is read is what the path gives, and the input is read once. -/
theorem readText_gives (h : (readText path).Ends s (.ok text) s') :
    path.Gives s.files s.input text ∧ s' = { s with input := path.inputBehind s.input } := by
  unfold Path.inputBehind
  cases hpath : path.sameAs Command.inputPath with
  | true =>
    obtain ⟨hread, hs'⟩ := readText_input hpath h
    have hinput := Content.read_eq_ok_iff.1 (mapError_eq_ok hread.symm)
    rw [hinput, if_neg (by simp)] at hs'
    exact ⟨.input hpath hinput, hs'⟩
  | false =>
    obtain ⟨hread, hs'⟩ := readText_file hpath h
    exact ⟨.file hpath (mapError_eq_ok hread.symm), hs'⟩

protected theorem KeepsFiles.loadView (path : Option Path) : (loadView path).KeepsFiles := by
  unfold loadView
  cases path with
  | none => exact .pure _
  | some path => exact .bind (.readText path) fun text => .orFail _ _

theorem loadView_gives {path : Option Path} {view : Value}
    (h : (loadView path).Ends s (.ok view) s') : Path.GivesView s.files s.input path view := by
  unfold loadView at h
  cases path with
  | none =>
    cases (ends_pure_iff.1 h).1
    exact .none
  | some path =>
    obtain ⟨text, s₁, hread, h⟩ := ends_bind_ok_iff.1 h
    have hgives := (readText_gives hread).1
    have hview := (ends_orFail_iff.1 h).1
    split at hview
    · next hextension => exact .toml hgives hextension (mapError_eq_ok hview.symm)
    · next hextension => exact .json hgives hextension (mapError_eq_ok hview.symm)

end CommandM

/-! ## Rendering -/

open CommandM

/-- What a request renders within a budget, of the files and the input: the template with the view
and the texts to include, as the settings of its project and the request itself want it. -/
def RenderRequest.Renders (request : RenderRequest) (budget : Nat) (files : FileSystem)
    (input : Content) (text : String) : Prop :=
  ∃ settings options template view session,
    Settings.loadOrDefault files request.root = .ok settings ∧
    optionsFor settings request = .ok options ∧
    request.template.Gives files input template ∧
    Path.GivesView files (request.template.inputBehind input) request.view view ∧
    ({} : Engine).answer budget Callables.none { memory := () }
      (.render template view
        (some (PartialFolder.inclusions
          ⟨request.partials.getD (settings.partialsFolder request.root),
            settings.partials.extension⟩ files))
        options) = some (.ok (.text text), session)

/-- The text that a request asks for. -/
def requestedText (budget : Nat) (request : RenderRequest) : CommandM String := do
  tellDefaults request.root
  let settings ← orFail .settings (Settings.loadOrDefault (← get).files request.root)
  let options ← orFail .engine (optionsFor settings request)
  let template ← readText request.template
  let view ← loadView request.view
  renderWith budget template view
    { root := request.partials.getD (settings.partialsFolder request.root)
      extension := settings.partials.extension } options

/-- What becomes of the text. -/
def deliver (text : String) : Option Path → CommandM Unit
  | some path => writeOutput path text
  | none => print text

theorem runRender_eq (budget : Nat) (request : RenderRequest) : runRender budget request =
    requestedText budget request >>= fun text => deliver text request.output := by
  unfold runRender requestedText
  simp only [bind_assoc]
  rfl

namespace CommandM

variable {budget : Nat} {s s' : Surroundings} {text : String}

protected theorem KeepsFiles.tellDefaults (root : Path) : (tellDefaults root).KeepsFiles := by
  unfold tellDefaults
  refine .bind .get fun s => ?_
  split
  · exact .tell _
  · exact .pure _

/-- Telling what there is to tell changes nothing else. -/
theorem tellDefaults_ends {root : Path} (h : (tellDefaults root).Ends s (.ok ()) s') :
    s'.files = s.files ∧ s'.input = s.input := by
  unfold tellDefaults at h
  rw [ends_get_bind_iff] at h
  split at h <;>
    · cases h
      exact ⟨rfl, rfl⟩

protected theorem KeepsFiles.renderWith (budget : Nat) (template : String) (view : Value)
    (folder : PartialFolder) (options : Options) :
    (renderWith budget template view folder options).KeepsFiles := by
  unfold renderWith
  refine .bind .get fun s => ?_
  dsimp only
  split
  · intro s result s' h
    cases h
  · refine .bind (.forM .tell _) fun _ => .bind (.orFail _ _) fun reply => ?_
    split <;> exact .pure _

/-- The reply to a rendering is a text. -/
theorem text_of_answer {e : Engine} {budget : Nat} {σ : Type} {callables : Callables σ}
    {session session' : Session σ} {template : String} {view : Value}
    {inclusions : Option Inclusions} {options : Options} {reply : Reply}
    (h : e.answer budget callables session (.render template view inclusions options) =
      some (.ok reply, session')) : ∃ text, reply = .text text := by
  unfold Engine.answer at h
  obtain ⟨⟨result, session₁, scope⟩, -, hreply⟩ := Option.map_eq_some_iff.1 h
  cases result with
  | error fault => cases hreply
  | ok text =>
    cases hreply
    exact ⟨text, rfl⟩

theorem renderWith_answer {template : String} {view : Value} {folder : PartialFolder}
    {options : Options}
    (h : (renderWith budget template view folder options).Ends s (.ok text) s') :
    ∃ session, ({} : Engine).answer budget Callables.none { memory := () }
      (.render template view (some (folder.inclusions s.files)) options) =
        some (.ok (.text text), session) := by
  unfold renderWith at h
  rw [ends_get_bind_iff] at h
  dsimp only at h
  split at h
  · cases h
  · next reply session hanswer =>
    obtain ⟨_, s₁, -, h⟩ := ends_bind_ok_iff.1 h
    obtain ⟨found, s₂, hreply, h⟩ := ends_bind_ok_iff.1 h
    obtain rfl := mapError_eq_ok (ends_orFail_iff.1 hreply).1.symm
    obtain ⟨found, rfl⟩ := text_of_answer hanswer
    cases (ends_pure_iff.1 h).1
    exact ⟨session, hanswer⟩

end CommandM

protected theorem CommandM.KeepsFiles.requestedText (budget : Nat) (request : RenderRequest) :
    (requestedText budget request).KeepsFiles := by
  unfold requestedText
  refine .bind (.tellDefaults _) fun _ => .bind .get fun s => .bind (.orFail _ _) fun settings => ?_
  refine .bind (.orFail _ _) fun options => .bind (.readText _) fun template => ?_
  exact .bind (.loadView _) fun view => .renderWith _ _ _ _ _

/-- The text that a request asks for is what it renders. -/
theorem requestedText_renders {budget : Nat} {request : RenderRequest} {s s' : Surroundings}
    {text : String} (h : (requestedText budget request).Ends s (.ok text) s') :
    request.Renders budget s.files s.input text := by
  unfold requestedText at h
  obtain ⟨_, s₁, htell, h⟩ := ends_bind_ok_iff.1 h
  obtain ⟨hfiles, hinput⟩ := tellDefaults_ends htell
  rw [ends_get_bind_iff] at h
  obtain ⟨settings, hsettings, h⟩ := ends_orFail_bind_ok_iff.1 h
  obtain ⟨options, hoptions, h⟩ := ends_orFail_bind_ok_iff.1 h
  obtain ⟨template, s₂, htemplate, h⟩ := ends_bind_ok_iff.1 h
  obtain ⟨htemplate, hs₂⟩ := readText_gives htemplate
  obtain ⟨view, s₃, hview, h⟩ := ends_bind_ok_iff.1 h
  have hfiles₃ : s₃.files = s.files := by
    rw [KeepsFiles.loadView _ _ _ _ hview, hs₂, hfiles]
  have hview := loadView_gives hview
  obtain ⟨session, hanswer⟩ := renderWith_answer h
  rw [hs₂, hfiles, hinput] at hview
  rw [hfiles] at hsettings
  rw [hfiles, hinput] at htemplate
  rw [hfiles₃] at hanswer
  exact ⟨settings, options, template, view, session, hsettings, hoptions, htemplate, hview,
    hanswer⟩

/-! ## Writing -/

/-- Makes the folder for a file, if its path has one. -/
def makeParent (path : Path) : CommandM Unit :=
  match path.parent? with
  | some parent =>
    if parent.isEmpty then pure ()
    else do
      let s ← get
      set { s with files := (s.files.makeFolders parent).2 }
      orFail .file (s.files.makeFolders parent).1
  | none => pure ()

/-- Puts a text into a file. -/
def putText (path : Path) (text : String) : CommandM Unit := do
  let s ← get
  let files ← orFail (.unwritable path) (s.files.write path text)
  set { s with files }
  tell ⟨.info, commandTarget, "已写入 " ++ path.text⟩

theorem writeOutput_eq (path : Path) (text : String) :
    writeOutput path text = makeParent path >>= fun _ => putText path text := by
  unfold writeOutput makeParent
  cases path.parent? with
  | none => rfl
  | some parent =>
    dsimp only
    cases parent.isEmpty with
    | true => rfl
    | false => simp only [Bool.not_false, if_true, Bool.false_eq_true, if_false, bind_assoc]; rfl

section

variable {path : Path} {text : String} {s s' : Surroundings} {result : Except Failure Unit}

theorem makeParent_sameFiles (h : (makeParent path).Ends s result s') :
    s.files.SameFiles s'.files := by
  unfold makeParent at h
  split at h
  · next parent _ =>
    split at h
    · cases h
      exact .refl _
    · rw [ends_get_bind_iff, ends_set_bind_iff] at h
      rw [(ends_orFail_iff.1 h).2]
      exact FileSystem.makeFolders_sameFiles s.files parent
  · cases h
    exact .refl _

theorem putText_files (h : (putText path text).Ends s result s') :
    (∃ failure, result = .error failure) ∧ s'.files = s.files ∨
      result = .ok () ∧ s.files.Written path text s'.files := by
  unfold putText at h
  rw [ends_get_bind_iff] at h
  cases hwrite : s.files.write path text with
  | error fault =>
    rw [hwrite] at h
    cases h
    exact .inl ⟨⟨_, rfl⟩, rfl⟩
  | ok after =>
    rw [hwrite] at h
    cases h
    exact .inr ⟨rfl, FileSystem.write_written hwrite⟩

/-- Either the text is written, or the files are as they were. -/
theorem writeOutput_files (h : (writeOutput path text).Ends s result s') :
    (∃ failure, result = .error failure) ∧ s.files.SameFiles s'.files ∨
      result = .ok () ∧ s.files.Written path text s'.files := by
  rw [writeOutput_eq] at h
  obtain ⟨failure, hmake, rfl⟩ | ⟨_, s₁, hmake, hput⟩ := ends_bind_iff.1 h
  · exact .inl ⟨⟨failure, rfl⟩, makeParent_sameFiles hmake⟩
  · have hsame := makeParent_sameFiles hmake
    obtain ⟨hfailed, hfiles⟩ | ⟨hdone, hwritten⟩ := putText_files hput
    · rw [hfiles]
      exact .inl ⟨hfailed, hsame⟩
    · exact .inr ⟨hdone, .trans hsame hwritten⟩

end

/-! ## Commands -/

protected theorem CommandM.KeepsFiles.runParse (template : Path) (delimiters : Option String) :
    (runParse template delimiters).KeepsFiles := by
  unfold runParse
  dsimp only
  split <;> refine .bind ?_ fun d => .bind (.readText _) fun text => .bind (.forM .tell _) fun _ =>
    .bind (.orFail _ _) fun tree => .print _
  · exact .map _ (.orFail _ _)
  · exact .pure _

protected theorem CommandM.KeepsFiles.runCheck (root : Path) : (runCheck root).KeepsFiles := by
  unfold runCheck
  refine .bind (.tellDefaults _) fun _ => .bind .get fun s => .bind (.orFail _ _) fun report => ?_
  refine .bind (.forM (fun _ => .tell _) _) fun _ => .bind (.forM (fun _ => .tell _) _) fun _ => ?_
  split
  · exact .tell _
  · exact .throw _

/-- The file that a command is to write. -/
def Command.target? : Command → Option Path
  | .render request => request.output
  | .parse .. | .check _ => none

section

variable {budget : Nat} {command : Command} {request : RenderRequest} {path : Path}
  {s s' : Surroundings} {result : Except Failure Unit}

theorem Command.run_keepsFiles (budget : Nat) (h : command.target? = none) :
    (command.run budget).KeepsFiles := by
  cases command with
  | render request =>
    have houtput : request.output = none := h
    rw [Command.run, runRender_eq, houtput]
    exact .bind (.requestedText budget request) fun text => .print text
  | parse template delimiters => exact .runParse template delimiters
  | check root => exact .runCheck root

/-- A rendering with an output file has that file written in the end, or it fails and no file is
new or changed. -/
theorem runRender_files (houtput : request.output = some path)
    (h : (runRender budget request).Ends s result s') :
    (∃ failure, result = .error failure) ∧ s.files.SameFiles s'.files ∨
      result = .ok () ∧ ∃ text, request.Renders budget s.files s.input text ∧
        s.files.Written path text s'.files := by
  rw [runRender_eq, houtput] at h
  obtain ⟨failure, hrequested, rfl⟩ | ⟨text, s₁, hrequested, hwrite⟩ := ends_bind_iff.1 h
  · rw [KeepsFiles.requestedText budget request _ _ _ hrequested]
    exact .inl ⟨⟨failure, rfl⟩, .refl _⟩
  · have hfiles := writeOutput_files hwrite
    rw [KeepsFiles.requestedText budget request _ _ _ hrequested] at hfiles
    obtain hfailed | ⟨hdone, hwritten⟩ := hfiles
    · exact .inl hfailed
    · exact .inr ⟨hdone, text, requestedText_renders hrequested, hwritten⟩

/-- A command that fails leaves the files as they were. -/
theorem Command.run_failed {failure : Failure}
    (h : (command.run budget).Ends s (.error failure) s') :
    s.files.SameFiles s'.files := by
  cases htarget : command.target? with
  | none =>
    rw [Command.run_keepsFiles budget htarget _ _ _ h]
    exact .refl _
  | some path =>
    cases command with
    | render request =>
      obtain ⟨-, hsame⟩ | ⟨hdone, -⟩ := runRender_files htarget h
      · exact hsame
      · cases hdone
    | parse template delimiters => cases htarget
    | check root => cases htarget

end

/-! ## The program -/

section

variable {arguments : List String} {files : FileSystem} {input : Content} {logging : Option String}
  {budget : Nat} {outcome : Outcome}

/-- The program runs a command, or changes nothing. -/
theorem runProgram_eq_some (h : runProgram arguments files input logging budget = some outcome) :
    (∀ command, Command.ofArguments arguments ≠ .ok command) ∧ outcome.files = files ∨
      ∃ command result s', Command.ofArguments arguments = .ok command ∧
        (command.run budget).Ends { files, input } result s' ∧ outcome.files = s'.files ∧
        (outcome.code = 0 ↔ result = .ok ()) := by
  unfold runProgram at h
  split at h
  · next harguments =>
    cases h
    refine .inl ⟨?_, rfl⟩
    intro command hcommand
    cases harguments.symm.trans hcommand
  · next harguments =>
    cases h
    refine .inl ⟨?_, rfl⟩
    intro command hcommand
    cases harguments.symm.trans hcommand
  · next command harguments =>
    obtain ⟨⟨result, s'⟩, hends, rfl⟩ := Option.map_eq_some_iff.1 h
    refine .inr ⟨command, result, s', harguments, hends, ?_⟩
    cases result <;> simp

/-- A command that fails leaves the files as they were; so does one that is to write no file. A
rendering with an output file that succeeds has rendered what was there before, also where that is
the output file itself, and changes no other file. -/
theorem runProgram_writes_output_only
    (hrun : runProgram arguments files input logging budget = some outcome) :
    (outcome.code ≠ 0 → files.SameFiles outcome.files) ∧
    ((∀ command, Command.ofArguments arguments = .ok command → command.target? = none) →
      outcome.files = files) ∧
    ∀ request path, Command.ofArguments arguments = .ok (.render request) →
      request.output = some path → outcome.code = 0 →
      ∃ text, request.Renders budget files input text ∧ files.Written path text outcome.files := by
  obtain ⟨hnone, hfiles⟩ | ⟨command, result, s', harguments, hends, hfiles, hcode⟩ :=
    runProgram_eq_some hrun
  · rw [hfiles]
    exact ⟨fun _ => .refl files, fun _ => rfl, fun request path hrequest =>
      absurd hrequest (hnone _)⟩
  · rw [hfiles]
    refine ⟨fun hfailed => ?_, fun hnone => ?_, fun request path hrequest houtput hdone => ?_⟩
    · cases result with
      | ok done => exact absurd (hcode.2 rfl) hfailed
      | error failure => exact Command.run_failed hends
    · exact Command.run_keepsFiles budget (hnone command harguments) _ _ _ hends
    · obtain rfl := Except.ok.inj (harguments.symm.trans hrequest)
      obtain ⟨⟨failure, hfailure⟩, -⟩ | ⟨-, hwritten⟩ := runRender_files houtput hends
      · rw [hcode.1 hdone] at hfailure
        cases hfailure
      · exact hwritten

end

/-- A project with a template, a view of it, a text that it includes, and settings that say where
such texts are and that nothing is escaped. -/
def noteFiles : FileSystem where
  top := .folder [
    ("stache.toml", .file (.text
      "[render]\nescape = \"none\"\n[partials]\ndir = \".\"\nextension = \"txt\"\n")),
    ("note.mustache", .file (.text "<%n%>, <%>line%>")),
    ("view.json", .file (.text "\x7b\"n\": \"1 < 2\"\x7d")),
    ("line.txt", .file (.text "3"))]

def noteArguments : List String :=
  ["render", "note.mustache", "--view=view.json", "--tags=<% %>", "-oline.txt"]

def noteRequest : RenderRequest where
  template := .ofText "note.mustache"
  view := some (.ofText "view.json")
  delimiters := some "<% %>"
  output := some (.ofText "line.txt")

theorem noteArguments_request : Command.ofArguments noteArguments = .ok (.render noteRequest) := by
  -- the reader of arguments goes on by well-founded recursion: one argument after the other
  have hgiven : Given.read renderForm {}
      ["note.mustache", "--view=view.json", "--tags=<% %>", "-oline.txt"] =
        .ok ⟨[("view", "view.json"), ("tags", "<% %>"), ("output", "line.txt")], [],
          ["note.mustache"]⟩ := by
    rw [Given.read]
    change Given.read _ ⟨[], [], ["note.mustache"]⟩
      ["--view=view.json", "--tags=<% %>", "-oline.txt"] = _
    rw [Given.read]
    change Given.read.continueWith _ (.ok ⟨[("view", "view.json")], [], ["note.mustache"]⟩)
      ["--tags=<% %>", "-oline.txt"] = _
    rw [Given.read.continueWith, Given.read]
    change Given.read.continueWith _
      (.ok ⟨[("view", "view.json"), ("tags", "<% %>")], [], ["note.mustache"]⟩)
      ["-oline.txt"] = _
    rw [Given.read.continueWith, Given.read]
    change Given.read.continueWith _
      (.ok ⟨[("view", "view.json"), ("tags", "<% %>"), ("output", "line.txt")], [],
        ["note.mustache"]⟩) [] = _
    rw [Given.read.continueWith, Given.read]
  rw [noteArguments, Command.ofArguments, hgiven]
  rfl

/-- The output file is the one that is included: what is written was rendered from what the file
held before. -/
theorem runProgram_writes_output_only_note : ∃ outcome,
    runProgram noteArguments noteFiles (.text "") none 2 = some outcome ∧ outcome.code = 0 ∧
    noteRequest.Renders 2 noteFiles (.text "") "1 < 2, 3" ∧
    noteFiles.Written (.ofText "line.txt") "1 < 2, 3" outcome.files := by
  have hrun : (runProgram noteArguments noteFiles (.text "") none 2).map
      (fun outcome => (outcome.code, outcome.files.read (.ofText "line.txt"))) =
        some (0, .ok "1 < 2, 3") := by
    rw [runProgram, noteArguments_request]
    decide +kernel
  obtain ⟨outcome, hrun, hends⟩ := Option.map_eq_some_iff.1 hrun
  obtain ⟨hcode, hread⟩ := Prod.mk.inj hends
  obtain ⟨-, -, houtput⟩ := runProgram_writes_output_only hrun
  obtain ⟨text, hrenders, hwritten⟩ := houtput noteRequest _ noteArguments_request rfl hcode
  obtain rfl : text = "1 < 2, 3" := Except.ok.inj (hwritten.read.symm.trans hread)
  exact ⟨outcome, hrun, hcode, hrenders, hwritten⟩

end TagTemplate
