import TagTemplate.Template.Reflow

/-!
# Lines that are moved to the right

Moving a text works line by line: a text that was moved has the lines of the text, each with the
spaces and tabs of the indentation (`spacesAndTabs`) in front or as it was (`splitLines_reflow`).
What decides is the place of the line and whether it is empty, and moving a line changes neither; so
a text that is moved twice is moved by both indentations at once, and what was put in front can be
taken away again. Main statement: `reflow_laws`.
-/

namespace TagTemplate

/-- The spaces and tabs among some characters, in order. -/
def spacesAndTabs : List Char → List Char
  | [] => []
  | c :: cs => if c = ' ' ∨ c = '\t' then c :: spacesAndTabs cs else spacesAndTabs cs

/-- Moving a text puts something in front of its line at an index: the line is not empty, and it is
not the first one behind text. -/
def IsMoved (afterText : Bool) (i : Nat) (line : List Char) : Prop :=
  line ≠ [] ∧ (0 < i ∨ afterText = false)

instance (afterText : Bool) (i : Nat) (line : List Char) : Decidable (IsMoved afterText i line) :=
  inferInstanceAs (Decidable (_ ∧ _))

/-- The line at an index with a margin in front, if it is moved. -/
def moveLine (margin : List Char) (afterText : Bool) (i : Nat) (line : List Char) : List Char :=
  if IsMoved afterText i line then margin ++ line else line

/-- The line at an index without as many characters as a margin has, if it was moved. -/
def moveLineBack (margin : List Char) (afterText : Bool) (i : Nat) (line : List Char) : List Char :=
  if IsMoved afterText i line then line.drop margin.length else line

/-- The text with its lines moved to the left again. -/
def reflowBack (text indentation : List Char) (afterText : Bool) : List Char :=
  joinLines ((splitLines text).mapIdx (moveLineBack (spacesAndTabs indentation) afterText))

/-! ## One line -/

section

variable {margin line : List Char} {afterText : Bool} {i : Nat}

/-- A line is as empty as it was. -/
theorem isMoved_moveLine : IsMoved afterText i (moveLine margin afterText i line) ↔
    IsMoved afterText i line := by
  unfold moveLine
  split
  · next hmoved =>
    have hne : margin ++ line ≠ [] := List.append_ne_nil_of_right_ne_nil margin hmoved.1
    exact ⟨fun _ => hmoved, fun _ => ⟨hne, hmoved.2⟩⟩
  · rfl

theorem moveLine_moveLine (outer inner : List Char) :
    moveLine outer afterText i (moveLine inner afterText i line) =
      moveLine (outer ++ inner) afterText i line := by
  by_cases hmoved : IsMoved afterText i line
  · have htwice : IsMoved afterText i (moveLine inner afterText i line) :=
      isMoved_moveLine.2 hmoved
    rw [moveLine, if_pos htwice, moveLine, if_pos hmoved, moveLine, if_pos hmoved,
      List.append_assoc]
  · have htwice : ¬IsMoved afterText i (moveLine inner afterText i line) :=
      mt isMoved_moveLine.1 hmoved
    rw [moveLine, if_neg htwice, moveLine, if_neg hmoved, moveLine, if_neg hmoved]

theorem moveLineBack_moveLine :
    moveLineBack margin afterText i (moveLine margin afterText i line) = line := by
  by_cases hmoved : IsMoved afterText i line
  · rw [moveLineBack, if_pos (isMoved_moveLine.2 hmoved), moveLine, if_pos hmoved, List.drop_left]
  · rw [moveLineBack, if_neg (mt isMoved_moveLine.1 hmoved), moveLine, if_neg hmoved]

theorem lineFeed_not_mem_moveLine (hmargin : '\n' ∉ margin) (hline : '\n' ∉ line) :
    '\n' ∉ moveLine margin afterText i line := by
  unfold moveLine
  split
  · rw [List.mem_append]
    exact not_or.2 ⟨hmargin, hline⟩
  · exact hline

end

/-! ## All lines -/

theorem indentLines_eq_mapIdx (margin : List Char) (afterText : Bool) (lines : List (List Char)) :
    indentLines margin afterText lines = lines.mapIdx (moveLine margin afterText) := by
  have hlater (i : Nat) : moveLine margin afterText (i + 1) = indentLine margin := by
    funext line
    cases line with
    | nil => rfl
    | cons c line => exact if_pos ⟨List.cons_ne_nil c line, .inl (Nat.succ_pos i)⟩
  cases lines with
  | nil => rfl
  | cons first more =>
    have hmore : more.mapIdx (fun i => moveLine margin afterText (i + 1)) =
        more.map (indentLine margin) := by
      refine List.mapIdx_eq_iff.2 fun i => ?_
      rw [List.getElem?_map, hlater]
    have hfirst : moveLine margin afterText 0 first =
        if afterText then first else indentLine margin first := by
      cases first <;> cases afterText <;> rfl
    rw [List.mapIdx_cons, indentLines, hmore, hfirst]

theorem spacesAndTabs_eq_filter (cs : List Char) :
    spacesAndTabs cs = cs.filter fun c => c = ' ' ∨ c = '\t' := by
  induction cs with
  | nil => rfl
  | cons c cs ih =>
    rw [spacesAndTabs, List.filter_cons, ih]
    simp only [decide_eq_true_eq]

/-- They are what a text is moved by. -/
theorem plainIndentation_eq_spacesAndTabs (indentation : List Char) :
    plainIndentation indentation = spacesAndTabs indentation := by
  rw [plainIndentation, spacesAndTabs_eq_filter]
  simp only [Bool.decide_or]

theorem spacesAndTabs_append (a b : List Char) :
    spacesAndTabs (a ++ b) = spacesAndTabs a ++ spacesAndTabs b := by
  rw [spacesAndTabs_eq_filter, List.filter_append, ← spacesAndTabs_eq_filter,
    ← spacesAndTabs_eq_filter]

theorem spacesAndTabs_spacesAndTabs (a : List Char) :
    spacesAndTabs (spacesAndTabs a) = spacesAndTabs a := by
  rw [spacesAndTabs_eq_filter, spacesAndTabs_eq_filter, List.filter_filter]
  simp only [Bool.and_self]

theorem lineFeed_not_mem_spacesAndTabs (a : List Char) : '\n' ∉ spacesAndTabs a := by
  intro hmem
  rw [spacesAndTabs_eq_filter] at hmem
  have hplain := (List.mem_filter.1 hmem).2
  cases hplain

/-- The lines of a text that is moved are its lines, moved. -/
theorem splitLines_reflow (text indentation : List Char) (afterText : Bool) :
    splitLines (reflow text indentation afterText) =
      (splitLines text).mapIdx (moveLine (spacesAndTabs indentation) afterText) := by
  unfold reflow
  rw [indentLines_eq_mapIdx, plainIndentation_eq_spacesAndTabs]
  refine splitOn_joinOn (fun hnil => ?_) fun line hline => ?_
  · exact splitOn_ne_nil '\n' text (List.mapIdx_eq_nil_iff.1 hnil)
  · obtain ⟨i, hi, rfl⟩ := List.mem_mapIdx.1 hline
    exact lineFeed_not_mem_moveLine (lineFeed_not_mem_spacesAndTabs indentation)
      (not_mem_of_mem_splitOn (List.getElem_mem hi))

/-- A text that is moved is put together from its lines, moved. -/
theorem reflow_eq_joinLines (text indentation : List Char) (afterText : Bool) :
    reflow text indentation afterText =
      joinLines ((splitLines text).mapIdx (moveLine (spacesAndTabs indentation) afterText)) := by
  rw [← splitLines_reflow, joinLines, splitLines, joinOn_splitOn]

/-- Moving by one indentation and then by another one is moving by both, the later one first. -/
theorem reflow_reflow (text inner outer : List Char) (afterText : Bool) :
    reflow (reflow text inner afterText) outer afterText =
      reflow text (outer ++ inner) afterText := by
  rw [reflow_eq_joinLines, splitLines_reflow, List.mapIdx_mapIdx, reflow_eq_joinLines,
    spacesAndTabs_append]
  refine congrArg joinLines (congrArg (List.mapIdx · (splitLines text)) ?_)
  funext i line
  exact moveLine_moveLine ..

/-- Moving back undoes moving. -/
theorem reflowBack_reflow (text indentation : List Char) (afterText : Bool) :
    reflowBack (reflow text indentation afterText) indentation afterText = text := by
  have hlines : (splitLines text).mapIdx (fun i =>
      moveLineBack (spacesAndTabs indentation) afterText i ∘
        moveLine (spacesAndTabs indentation) afterText i) = splitLines text := by
    refine List.mapIdx_eq_iff.2 fun i => ?_
    cases (splitLines text)[i]? with
    | none => rfl
    | some line => exact congrArg some moveLineBack_moveLine.symm
  unfold reflowBack
  rw [splitLines_reflow, List.mapIdx_mapIdx, hlines, joinLines, splitLines, joinOn_splitOn]

/-! ## The laws -/

/-- Nested inclusion adds the indentations up, the outer one first. A text that is moved has as many
lines as before, and line `i` is what it was unless it is moved: then it has the spaces and tabs of
the indentation in front. They can be taken away again, and nothing else of the indentation
matters. -/
theorem reflow_laws (text inner outer : List Char) (afterText : Bool) :
    reflow (reflow text inner afterText) outer afterText = reflow text (outer ++ inner) afterText ∧
    (splitLines (reflow text inner afterText)).length = (splitLines text).length ∧
    (∀ i : Nat, (splitLines (reflow text inner afterText))[i]? = (splitLines text)[i]?.map fun line =>
      if line ≠ [] ∧ (0 < i ∨ afterText = false) then spacesAndTabs inner ++ line else line) ∧
    reflowBack (reflow text inner afterText) inner afterText = text ∧
    reflow text (spacesAndTabs inner) afterText = reflow text inner afterText := by
  refine ⟨reflow_reflow .., ?_, fun i => ?_, reflowBack_reflow .., ?_⟩
  · rw [splitLines_reflow, List.length_mapIdx]
  · rw [splitLines_reflow, List.getElem?_mapIdx]
    rfl
  · rw [reflow_eq_joinLines, reflow_eq_joinLines, spacesAndTabs_spacesAndTabs]

example : reflow (reflow "a\n\nb".toList "\t.".toList true) " ".toList true = "a\n\n \tb".toList := by
  decide

end TagTemplate
