import TagTemplate.Proofs.Template.Brackets
import TagTemplate.Proofs.Template.Squash

/-!
# What reading a template comes to

The stack of keys and the draft do not look at each other. Main statements: `parse_eq_ok_iff` and
`parse_eq_error_iff`, a template is read if its pieces reach its end and its tags are balanced,
and otherwise the first thing wrong is the fault; `tagsOf_layout`, the tags to be nested are those
that were read.
-/

namespace TagTemplate

def partTags (ps : List Part) : List Tag :=
  ps.filterMap fun
    | .text .. => none
    | .tag t _ => some t

/-! ## Stack and draft -/

/-- Reading some pieces drafts them all, if the stack of keys gets through their tags. -/
theorem Reading.foldlM_addPiece (source : String) (r : Reading) (ps : List Piece) :
    ps.foldlM (addPiece source) r = (keysThrough source r.openKeys (tagsOf ps)).map fun keys =>
      ⟨ps.foldl Draft.addPiece r.draft, keys⟩ := by
  induction ps generalizing r with
  | nil => rfl
  | cons p ps ih =>
    rw [List.foldlM_cons]
    cases p with
    | char c start =>
      rw [addPiece, ok_bind, ih]
      rfl
    | tag t =>
      rw [addPiece, addTag, tagsOf_tag, keysThrough_cons]
      cases t.keysAfter source r.openKeys with
      | error fault => rfl
      | ok keys =>
        rw [ok_bind]
        exact ih _

variable {d : Delimiters} {template : String} {nodes : List Node} {draft : Draft} {fault : Fault}

/-- Drafting a template is following its tags and then looking at its end. -/
theorem draft_eq (d : Delimiters) (template : String) :
    (Cursor.start template.toList).read template d {} =
      keysThrough template [] (tagsOf (Pieces.ofText d template).list) >>= fun keys =>
        (Pieces.ofText d template).ending.conclude template
          ⟨(Pieces.ofText d template).list.foldl Draft.addPiece {}, keys⟩ := by
  rw [Cursor.read_eq, Pieces.follow, Reading.foldlM_addPiece]
  show Except.map _ (keysThrough template [] (tagsOf (Pieces.ofText d template).list)) >>= _ = _
  cases keysThrough template [] (tagsOf (Pieces.ofText d template).list) <;> rfl

/-- A template is drafted if its end is reached and its tags are balanced. -/
theorem draft_eq_ok_iff : (Cursor.start template.toList).read template d {} = .ok draft ↔
    (∃ pos, (Pieces.ofText d template).ending = .finished pos) ∧
      Balanced (tagsOf (Pieces.ofText d template).list) ∧
      ((Pieces.ofText d template).list.foldl Draft.addPiece {}).strike = draft := by
  rw [draft_eq]
  generalize Pieces.ofText d template = ps
  constructor
  · intro h
    obtain ⟨keys, hkeys, h⟩ := bind_eq_ok h
    obtain ⟨openers, hopen, rfl⟩ := keysThrough_eq_ok_iff.1 hkeys
    cases hend : ps.ending with
    | unclosed closing pos => rw [hend] at h; cases h
    | refused fault => rw [hend] at h; cases h
    | finished pos =>
      rw [hend] at h
      cases openers with
      | cons o openers => cases h
      | nil =>
        cases h
        exact ⟨⟨pos, rfl⟩, openAfter_nil hopen, rfl⟩
  · rintro ⟨⟨pos, hend⟩, hbalanced, rfl⟩
    rw [hbalanced.keysThrough, ok_bind, hend]
    rfl

theorem parse_eq_ok_iff_draft : parse d template = .ok nodes ↔
    ∃ draft, (Cursor.start template.toList).read template d {} = .ok draft ∧
      nest draft.squash = nodes := by
  rw [parse]
  cases (Cursor.start template.toList).read template d {} <;> simp [Except.map]

/-- A template is read if its end is reached and its tags are balanced. -/
theorem parse_eq_ok_iff : parse d template = .ok nodes ↔
    (∃ pos, (Pieces.ofText d template).ending = .finished pos) ∧
      Balanced (tagsOf (Pieces.ofText d template).list) ∧
      nest (layout (Pieces.ofText d template).list) = nodes := by
  rw [parse_eq_ok_iff_draft, ← Draft.squash_eq]
  simp only [draft_eq_ok_iff]
  exact ⟨fun ⟨_, ⟨hend, hbalanced, hdraft⟩, hnodes⟩ => ⟨hend, hbalanced, hdraft ▸ hnodes⟩,
    fun ⟨hend, hbalanced, hnodes⟩ => ⟨_, ⟨hend, hbalanced, rfl⟩, hnodes⟩⟩

theorem parse_eq_error_iff_draft : parse d template = .error fault ↔
    (Cursor.start template.toList).read template d {} = .error fault := by
  rw [parse]
  cases (Cursor.start template.toList).read template d {} <;> simp [Except.map]

/-- What is wrong at the end of the pieces, with some blocks open. -/
def Ending.Faults (template : String) (openers : List Tag) (fault : Fault) : Ending → Prop
  | .refused f => fault = f
  | .unclosed closing pos => fault = .malformed ⟨.unclosedTag closing, pos, template⟩
  | .finished pos =>
    ∃ o outer, openers = o :: outer ∧ fault = .malformed ⟨.unclosedBlock o.key, pos, template⟩

theorem Ending.conclude_eq_error_iff (draft : Draft) {openers : List Tag} {ending : Ending} :
    ending.conclude template ⟨draft, openers.map Tag.key⟩ = .error fault ↔
      ending.Faults template openers fault := by
  cases ending with
  | refused f => simp [conclude, Faults, eq_comm]
  | unclosed closing pos => simp [conclude, Faults, eq_comm]
  | finished pos => cases openers <;> simp [conclude, Faults, Reading.finish, eq_comm]

/-- A template is refused for the first closing tag that does not fit, or else for its end. -/
theorem parse_eq_error_iff : parse d template = .error fault ↔
    (∃ before e after openers,
      tagsOf (Pieces.ofText d template).list = before ++ e :: after ∧ OpenAfter before openers ∧
        e.keysAfter template (openers.map Tag.key) = .error fault) ∨
    ∃ openers, OpenAfter (tagsOf (Pieces.ofText d template).list) openers ∧
      (Pieces.ofText d template).ending.Faults template openers fault := by
  rw [parse_eq_error_iff_draft, draft_eq, ← keysThrough_eq_error_iff]
  generalize Pieces.ofText d template = ps
  cases hkeys : keysThrough template [] (tagsOf ps.list) with
  | error f =>
    have hnone : ∀ openers, ¬ OpenAfter (tagsOf ps.list) openers := by
      intro openers hopen
      rw [hopen.keysThrough] at hkeys
      cases hkeys
    simp [hnone]
  | ok keys =>
    obtain ⟨openers, hopen, rfl⟩ := keysThrough_eq_ok_iff.1 hkeys
    rw [ok_bind, Ending.conclude_eq_error_iff]
    constructor
    · intro h
      exact .inr ⟨openers, hopen, h⟩
    · rintro (h | ⟨openers', hopen', h⟩)
      · cases h
      · -- the end looks at the keys of the open blocks only
        have hsame := hopen'.keysThrough template
        rw [hkeys] at hsame
        rw [← Ending.conclude_eq_error_iff {}] at h ⊢
        rw [Except.ok.inj hsame]
        exact h

/-! ## The tags of the layout -/

@[simp] theorem partTags_text (text : String) (start stop : Nat) (ps : List Part) :
    partTags (.text text start stop :: ps) = partTags ps := rfl

@[simp] theorem partTags_tag (t : Tag) (m : Margin) (ps : List Part) :
    partTags (.tag t m :: ps) = t :: partTags ps := rfl

theorem partTags_append (a b : List Part) : partTags (a ++ b) = partTags a ++ partTags b :=
  List.filterMap_append

theorem partTags_joinTexts (ps : List Part) : partTags (joinTexts ps) = partTags ps := by
  induction ps with
  | nil => rfl
  | cons p ps ih =>
    cases p with
    | tag t m => rw [joinTexts_tag, partTags_tag, partTags_tag, ih]
    | text text start stop =>
      rw [joinTexts, partTags_text, ← ih]
      cases joinTexts ps with
      | nil => rfl
      | cons q qs => cases q <;> rfl

theorem partTags_lineParts (before line : List Piece) :
    partTags (lineParts before line) = tagsOf line := by
  induction line generalizing before with
  | nil => rfl
  | cons p line ih => cases p <;> simp [lineParts, Piece.part, ih]

/-- Only characters are struck out of a line. -/
theorem partTags_keptParts (line : List Piece) : partTags (keptParts line) = tagsOf line := by
  rw [keptParts, ← partTags_lineParts [] line]
  induction lineParts [] line with
  | nil => rfl
  | cons p ps ih =>
    cases p with
    | tag t m => simpa [Part.isTag] using ih
    | text text start stop =>
      rw [List.filter_cons, partTags_text]
      split
      · exact ih
      · exact ih

theorem partTags_flatMap (lines : List (List Piece)) :
    partTags (lines.flatMap keptParts) = tagsOf lines.flatten := by
  induction lines with
  | nil => rfl
  | cons line lines ih =>
    rw [List.flatMap_cons, partTags_append, partTags_keptParts, ih, List.flatten_cons,
      tagsOf_append]

/-- The tags to be nested are those that were read, in their order. -/
theorem tagsOf_layout (ps : List Piece) : partTags (layout ps) = tagsOf ps := by
  rw [layout, partTags_joinTexts, partTags_flatMap, pieceLines_flatten]

end TagTemplate
