import TagTemplate.Proofs.Template.Append
import TagTemplate.Template.Reflow

/-!
# Excerpts

What people are shown of a template that cannot be read. Main statement: `excerpt_around_line`, the
excerpt consists of the lines around the problem, numbered, and the line with the problem is marked,
unless the problem is behind the last line feed; then the line with the problem is empty, and it is
the one that is missing. `excerpt_misses_last_line` is a template where it is.
-/

namespace TagTemplate

/-! ## The lines of a source -/

/-- A line without the carriage return that belongs to the line feed behind it. -/
def withoutReturn (line : List Char) : List Char :=
  if line.getLast? = some '\r' then line.dropLast else line

/-- Lines without their endings. The last one has none. -/
def withoutEndings : List (List Char) → List (List Char)
  | [] => []
  | [last] => [last]
  | line :: next :: more => withoutReturn line :: withoutEndings (next :: more)

/-- The lines of a source, one more than it has line feeds. -/
def sourceLines (source : List Char) : List (List Char) := withoutEndings (splitLines source)

theorem length_withoutEndings (lines : List (List Char)) :
    (withoutEndings lines).length = lines.length := by
  induction lines with
  | nil => rfl
  | cons line more ih =>
    cases more with
    | nil => rfl
    | cons => exact congrArg (· + 1) ih

theorem length_sourceLines (source : List Char) :
    (sourceLines source).length = source.count '\n' + 1 := by
  rw [sourceLines, length_withoutEndings, length_splitOn]

/-- A position is on a line of the source. -/
theorem lineColumn_line_le (source : List Char) (pos : Nat) :
    1 ≤ (lineColumn source pos).line ∧
      (lineColumn source pos).line ≤ (sourceLines source).length := by
  have hcount := (prefix_beforeByte source pos).sublist.count_le '\n'
  rw [length_sourceLines, lineColumn]
  dsimp only
  omega

/-! ### Lines as they are shown -/

theorem withoutReturn_cons {c : Char} {line : List Char} (h : line = [] → c ≠ '\r') :
    withoutReturn (c :: line) = c :: withoutReturn line := by
  cases line with
  | nil => exact if_neg fun hlast => h rfl (Option.some.inj hlast)
  | cons next line =>
    rw [withoutReturn, withoutReturn, List.getLast?_cons_cons, List.dropLast_cons_cons]
    split
    · rfl
    · rfl

theorem sourceLines_lineFeed (source : List Char) :
    sourceLines ('\n' :: source) = [] :: sourceLines source := by
  obtain ⟨line, more, hlines⟩ := List.exists_cons_of_ne_nil (splitOn_ne_nil '\n' source)
  rw [sourceLines, sourceLines, splitLines, splitOn, if_pos rfl, hlines]
  rfl

theorem sourceLines_return (source : List Char) :
    sourceLines ('\r' :: '\n' :: source) = sourceLines ('\n' :: source) := by
  obtain ⟨line, more, hlines⟩ := List.exists_cons_of_ne_nil (splitOn_ne_nil '\n' source)
  have hfeed : splitLines ('\r' :: '\n' :: source) = ['\r'] :: splitLines source :=
    splitOn_append (show '\n' ∉ ['\r'] by decide) source
  rw [sourceLines_lineFeed, sourceLines, hfeed, sourceLines, splitLines, hlines]
  rfl

/-- Any other character belongs to the first line. -/
theorem sourceLines_cons {c : Char} {source : List Char} (hc : c ≠ '\n')
    (hreturn : ¬(c = '\r' ∧ source.head? = some '\n')) :
    ∃ line more, sourceLines source = line :: more ∧
      sourceLines (c :: source) = (c :: line) :: more := by
  obtain ⟨part, more, hparts⟩ := List.exists_cons_of_ne_nil (splitOn_ne_nil '\n' source)
  rw [sourceLines, sourceLines, splitLines, splitOn, if_neg hc, hparts]
  cases more with
  | nil => exact ⟨part, [], rfl, rfl⟩
  | cons next more =>
    have hkept : withoutReturn (c :: part) = c :: withoutReturn part := by
      refine withoutReturn_cons fun hnil heq => hreturn ⟨heq, ?_⟩
      subst hnil
      exact head?_of_splitOn_nil hparts
    exact ⟨withoutReturn part, withoutEndings (next :: more), rfl,
      congrArg (· :: withoutEndings (next :: more)) hkept⟩

theorem getLast?_cons_ne_nil {line : List Char} {more : List (List Char)}
    (hline : more = [] → line ≠ []) (hmore : more.getLast? ≠ some []) :
    (line :: more).getLast? ≠ some [] := by
  cases more with
  | nil => exact fun h => hline rfl (Option.some.inj h)
  | cons next more => rwa [List.getLast?_cons_cons]

/-- The lines of a text are those of the source, but for a last one that is empty. -/
theorem textLines_cases (source : List Char) :
    (textLines source = sourceLines source ∧ (sourceLines source).getLast? ≠ some []) ∨
      sourceLines source = textLines source ++ [[]] := by
  -- by characters, as the text is read: what a carriage return is, the next character tells
  induction source with
  | nil => exact .inr rfl
  | cons c rest ih =>
    rw [textLines]
    split
    · next hc =>
      subst hc
      rw [sourceLines_lineFeed]
      rcases ih with ⟨hsame, hlast⟩ | hempty
      · refine .inl ⟨congrArg ([] :: ·) hsame, getLast?_cons_ne_nil (fun hnil => ?_) hlast⟩
        have hlength := length_sourceLines rest
        rw [hnil] at hlength
        cases hlength
      · exact .inr (congrArg ([] :: ·) hempty)
    · next hc =>
      split
      · next hreturn =>
        obtain ⟨rfl, hhead⟩ := hreturn
        obtain ⟨rest, rfl⟩ := List.head?_eq_some_iff.1 hhead
        rw [sourceLines_return]
        exact ih
      · next hreturn =>
        obtain ⟨line, more, hlines, hcons⟩ := sourceLines_cons hc hreturn
        rw [hcons]
        rw [hlines] at ih
        rcases ih with ⟨hsame, hlast⟩ | hempty
        · rw [hsame]
          refine .inl ⟨rfl, getLast?_cons_ne_nil (fun _ => List.cons_ne_nil c line) fun hnil => ?_⟩
          obtain ⟨front, rfl⟩ := List.getLast?_eq_some_iff.1 hnil
          exact hlast (List.getLast?_concat (l := line :: front))
        · cases htext : textLines rest with
          | nil =>
            rw [htext] at hempty
            obtain ⟨rfl, rfl⟩ := List.cons.inj hempty
            exact .inl ⟨rfl, fun hnil => by cases hnil⟩
          | cons line' more' =>
            rw [htext] at hempty
            obtain ⟨rfl, rfl⟩ := List.cons.inj hempty
            exact .inr rfl

/-! ## Numbered lines -/

/-- Lines with their numbers. -/
def numbered (first : Nat) (lines : List (List Char)) : List (Nat × List Char) :=
  (List.range' first lines.length).zip lines

theorem numbered_append (first : Nat) (a b : List (List Char)) :
    numbered first (a ++ b) = numbered first a ++ numbered (first + a.length) b := by
  rw [numbered, List.length_append, ← List.range'_append_1, List.zip_append List.length_range']
  rfl

theorem map_fst_numbered (first : Nat) (lines : List (List Char)) :
    (numbered first lines).map Prod.fst = List.range' first lines.length :=
  List.map_fst_zip (Nat.le_of_eq List.length_range')

theorem numbered_bounds {first : Nat} {lines : List (List Char)} {entry : Nat × List Char}
    (h : entry ∈ numbered first lines) : first ≤ entry.1 ∧ entry.1 < first + lines.length := by
  have hmem := List.mem_map_of_mem (f := Prod.fst) h
  rw [map_fst_numbered, List.mem_range'_1] at hmem
  exact hmem

/-- One of the lines has the number, if it is in their range. -/
theorem countP_numbered {first line : Nat} {lines : List (List Char)} (h : first ≤ line)
    (hlt : line < first + lines.length) :
    (numbered first lines).countP (fun entry => entry.1 = line) = 1 := by
  have hcount : (List.range' first lines.length).count line = 1 :=
    List.count_eq_one_of_mem List.nodup_range' (List.mem_range'_1.2 ⟨h, hlt⟩)
  rw [← map_fst_numbered, List.count, List.countP_map] at hcount
  rw [← hcount]
  rfl

/-- The number of the line is within 2 of the number of another. -/
def near (line : Nat) (entry : Nat × List Char) : Bool := entry.1 ≤ line + 2 && line ≤ entry.1 + 2

theorem near_iff {line : Nat} {entry : Nat × List Char} :
    near line entry = true ↔ entry.1 ≤ line + 2 ∧ line ≤ entry.1 + 2 := by
  rw [near, Bool.and_eq_true, decide_eq_true_iff, decide_eq_true_iff]

theorem filter_near_eq_nil {first line : Nat} {lines : List (List Char)}
    (h : ∀ n, first ≤ n → n < first + lines.length → line + 2 < n ∨ n + 2 < line) :
    (numbered first lines).filter (near line) = [] := by
  refine List.filter_eq_nil_iff.2 fun entry hentry hnear => ?_
  have hbounds := numbered_bounds hentry
  have hfar := h entry.1 hbounds.1 hbounds.2
  have hwithin := near_iff.1 hnear
  omega

theorem filter_near_eq_self {first line : Nat} {lines : List (List Char)}
    (h : ∀ n, first ≤ n → n < first + lines.length → n ≤ line + 2 ∧ line ≤ n + 2) :
    (numbered first lines).filter (near line) = numbered first lines := by
  refine List.filter_eq_self.2 fun entry hentry => near_iff.2 ?_
  have hbounds := numbered_bounds hentry
  exact h entry.1 hbounds.1 hbounds.2

/-- The lines around a line are a window on all lines. -/
theorem filter_near (lines : List (List Char)) (line : Nat) :
    (numbered 1 lines).filter (near line) =
      numbered (line - 3 + 1) ((lines.take (line + 2)).drop (line - 3)) := by
  have hreach : (lines.take (line + 2)).length = min (line + 2) lines.length := List.length_take
  obtain hshort | hlong := Nat.lt_or_ge (lines.take (line + 2)).length (line - 3)
  · -- the window is behind the end
    rw [List.drop_eq_nil_of_le (Nat.le_of_lt hshort)]
    refine filter_near_eq_nil fun n hle hlt => ?_
    omega
  · obtain ⟨before, window, hsplit, hbefore⟩ : ∃ before window,
        lines.take (line + 2) = before ++ window ∧ before.length = line - 3 :=
      ⟨_, _, (List.take_append_drop (line - 3) _).symm, by rw [List.length_take]; omega⟩
    have hwindow : (lines.take (line + 2)).drop (line - 3) = window := by
      rw [hsplit, ← hbefore, List.drop_left]
    rw [hsplit, List.length_append] at hreach
    have hlines : lines = before ++ window ++ lines.drop (line + 2) := by
      rw [← hsplit, List.take_append_drop]
    have hfront : (numbered 1 before).filter (near line) = [] :=
      filter_near_eq_nil fun n hle hlt => by omega
    have hkept : (numbered (1 + before.length) window).filter (near line) =
        numbered (1 + before.length) window :=
      filter_near_eq_self fun n hle hlt => by omega
    have hback : (numbered (1 + (before ++ window).length) (lines.drop (line + 2))).filter
        (near line) = [] := by
      refine filter_near_eq_nil fun n hle hlt => ?_
      rw [List.length_append, List.length_drop] at hlt
      rw [List.length_append] at hle
      omega
    calc (numbered 1 lines).filter (near line)
      _ = (numbered 1 (before ++ window ++ lines.drop (line + 2))).filter (near line) :=
          congrArg (fun lines => (numbered 1 lines).filter (near line)) hlines
      _ = numbered (1 + before.length) window := by
          rw [numbered_append, numbered_append, List.filter_append, List.filter_append, hfront,
            hkept, hback, List.nil_append, List.append_nil]
      _ = _ := by rw [hwindow, hbefore, Nat.add_comm 1]

/-! ## Rows of an excerpt -/

/-- A number stands to the right of a field: the field has the width, and ends with the number
behind nothing but spaces. -/
structure RightAligned (width number : Nat) (field : String) : Prop where
  length : field.length = width
  number : ∃ spaces, (∀ c ∈ spaces, c = ' ') ∧ field.toList = spaces ++ (toString number).toList

/-- A row of an excerpt: whether the line is the marked one, its number to the right of a field of
some width, and its text. -/
def IsExcerptRow (width marked : Nat) (entry : Nat × List Char) (row : String) : Prop :=
  ∃ field, RightAligned width entry.1 field ∧
    row = "  " ++ (if entry.1 = marked then ">" else " ") ++ " " ++ field ++ " | " ++
      String.ofList entry.2 ++ "\n"

/-- The text has a row for each of the entries, in order, with the numbers aligned in fields of one
width. -/
def MadeOfRows (marked : Nat) (entries : List (Nat × List Char)) (text : String) : Prop :=
  ∃ (width : Nat) (row : Nat × List Char → String),
    (∀ entry ∈ entries, IsExcerptRow width marked entry (row entry)) ∧
      text = String.join (entries.map row)

/-- The row of the marked line has the marker. -/
theorem MadeOfRows.marker {marked : Nat} {entries : List (Nat × List Char)} {text : String}
    (h : MadeOfRows marked entries text) {entry : Nat × List Char} (hentry : entry ∈ entries)
    (hmarked : entry.1 = marked) : '>' ∈ text.toList := by
  obtain ⟨width, row, hrows, rfl⟩ := h
  have hmarker : '>' ∈ (row entry).toList := by
    obtain ⟨field, -, hrow⟩ := hrows entry hentry
    simp [hrow, hmarked]
  rw [String.toList_join]
  exact List.mem_flatMap.2 ⟨row entry, List.mem_map_of_mem hentry, hmarker⟩

/-- A number that is written to the right of a field that is wide enough for it is aligned. -/
theorem rightAligned_padLeft {width number : Nat} (h : (toString number).length ≤ width) :
    RightAligned width number (padLeft width (toString number)) := by
  refine ⟨?_, List.replicate (width - (toString number).length) ' ',
    fun c hc => List.eq_of_mem_replicate hc, ?_⟩
  · rw [padLeft, String.length_append, String.length_ofList, List.length_replicate]
    omega
  · rw [padLeft, String.toList_append, String.toList_ofList]

theorem length_toString_le {m n : Nat} (h : m ≤ n) :
    (toString m).length ≤ (toString n).length := by
  have hlength (k : Nat) : (toString k).length = (Nat.toDigits 10 k).length := by
    rw [Nat.toString_eq_repr, ← String.length_toList, Nat.toList_repr]
  have hpos : 0 < (Nat.toDigits 10 n).length := Nat.length_toDigits_pos
  rw [hlength, hlength, Nat.length_toDigits_le_iff (by decide) hpos]
  exact Nat.lt_of_le_of_lt h ((Nat.length_toDigits_le_iff (by decide) hpos).1 (Nat.le_refl _))

/-- The lines of a source within 2 of a line, with their numbers. -/
def linesNear (source : List Char) (line : Nat) : List (Nat × List Char) :=
  (numbered 1 (sourceLines source)).filter (near line)

theorem excerptLines_eq (source : List Char) (line : Nat) :
    excerptLines source line = (numbered 1 (textLines source)).filter (near line) :=
  (filter_near (textLines source) line).symm

theorem excerpt_rows (source : List Char) (line : Nat) :
    MadeOfRows line (excerptLines source line) (excerpt source line) := by
  refine ⟨(toString (min (line + 2) (textLines source).length)).length, _, fun entry hentry => ?_,
    rfl⟩
  rw [excerptLines_eq, List.mem_filter, near_iff] at hentry
  have hbounds := numbered_bounds hentry.1
  exact ⟨_, rightAligned_padLeft (length_toString_le (by omega)), rfl⟩

/-! ## Excerpts around a line -/

/-- The line is the empty one behind the last line feed. -/
def AtEmptyEnd (source : List Char) (line : Nat) : Prop :=
  (sourceLines source).getLast? = some [] ∧ line = (sourceLines source).length

/-- The text shows the lines around a line, and marks one of them, the line itself. It may do
without an empty line at the end of the source, if that is not the line itself. -/
def ShowsAround (source : List Char) (line : Nat) (text : String) : Prop :=
  ∃ entries, MadeOfRows line entries text ∧
    (entries = linesNear source line ∨ line ≠ (sourceLines source).length ∧
      linesNear source line = entries ++ [((sourceLines source).length, [])]) ∧
    entries.countP (fun entry => entry.1 = line) = 1

/-- One of the lines around a line is the line itself. -/
theorem countP_filter_near {lines : List (List Char)} {line : Nat} (h : 1 ≤ line)
    (hle : line ≤ lines.length) :
    ((numbered 1 lines).filter (near line)).countP (fun entry => entry.1 = line) = 1 := by
  rw [List.countP_filter]
  refine (List.countP_congr fun entry _ => ?_).trans
    (countP_numbered h (show line < 1 + lines.length by omega))
  rw [Bool.and_eq_true, near_iff, decide_eq_true_iff]
  omega

theorem linesNear_of_append {source : List Char} {lines : List (List Char)}
    (h : sourceLines source = lines ++ [[]]) (line : Nat) :
    linesNear source line = (numbered 1 lines).filter (near line) ++
      [(lines.length + 1, [])].filter (near line) := by
  rw [linesNear, h, numbered_append, List.filter_append, Nat.add_comm 1]
  rfl

theorem excerpt_showsAround {source : List Char} {line : Nat} (h : 1 ≤ line)
    (hle : line ≤ (sourceLines source).length) (hend : ¬AtEmptyEnd source line) :
    ShowsAround source line (excerpt source line) := by
  refine ⟨excerptLines source line, excerpt_rows source line, ?_⟩
  rw [excerptLines_eq]
  rcases textLines_cases source with ⟨hsame, -⟩ | hempty
  · rw [hsame]
    exact ⟨.inl rfl, countP_filter_near h hle⟩
  · have hlength : (sourceLines source).length = (textLines source).length + 1 := by
      rw [hempty, List.length_append, List.length_singleton]
    have hne : line ≠ (sourceLines source).length := fun heq =>
      hend ⟨by rw [hempty, List.getLast?_concat], heq⟩
    refine ⟨?_, countP_filter_near h (by omega)⟩
    rw [linesNear_of_append hempty]
    cases hnear : near line ((textLines source).length + 1, []) with
    | true =>
      refine .inr ⟨hne, ?_⟩
      rw [List.filter_cons_of_pos hnear, hlength, List.filter_nil]
    | false =>
      refine .inl ?_
      rw [List.filter_cons_of_neg (Bool.not_eq_true _ ▸ hnear), List.filter_nil, List.append_nil]

/-- Behind the last line feed the line itself is the one that is not shown. -/
theorem excerpt_at_empty_end {source : List Char} {line : Nat} (hend : AtEmptyEnd source line) :
    ∃ entries, MadeOfRows line entries (excerpt source line) ∧
      linesNear source line = entries ++ [(line, [])] ∧ ∀ entry ∈ entries, entry.1 ≠ line := by
  obtain ⟨hlast, hline⟩ := hend
  refine ⟨excerptLines source line, excerpt_rows source line, ?_⟩
  rw [excerptLines_eq]
  rcases textLines_cases source with ⟨-, hne⟩ | hempty
  · exact absurd hlast hne
  · rw [hempty, List.length_append, List.length_singleton] at hline
    have hnear : near line ((textLines source).length + 1, []) = true := by
      rw [near_iff]
      omega
    rw [linesNear_of_append hempty, List.filter_cons_of_pos hnear, List.filter_nil, ← hline]
    refine ⟨rfl, fun entry hentry => ?_⟩
    have hbounds := numbered_bounds (List.mem_filter.1 hentry).1
    omega

/-- The excerpt of a template that cannot be read shows the lines around the problem, and marks the
line with the problem. If the problem is behind the last line feed, then it shows all but the line
with the problem, which is empty, and marks none. -/
theorem excerpt_around_line {d : Delimiters} {template : String} {f : SyntaxFault}
    (h : parse d template = .error (.malformed f)) :
    (¬AtEmptyEnd template.toList f.place.line →
      ShowsAround template.toList f.place.line f.shown) ∧
    (AtEmptyEnd template.toList f.place.line →
      ∃ entries, MadeOfRows f.place.line entries f.shown ∧
        linesNear template.toList f.place.line = entries ++ [(f.place.line, [])] ∧
        ∀ entry ∈ entries, entry.1 ≠ f.place.line) := by
  have hsource : f.source = template := by
    rcases parse_error_source h with ⟨_, hinvalid⟩ | ⟨_, _, hmalformed⟩
    · cases hinvalid
    · cases hmalformed
      rfl
  have hplace : f.place = lineColumn template.toList f.pos := by rw [SyntaxFault.place, hsource]
  obtain ⟨hpos, hle⟩ := lineColumn_line_le template.toList f.pos
  rw [SyntaxFault.shown, hsource, hplace]
  exact ⟨excerpt_showsAround hpos hle, excerpt_at_empty_end⟩

/-- A crossed block on the fourth of seven lines, and a line that ends with a carriage return. -/
def crossedLines : String := "1\n2\n\x7b\x7b#a\x7d\x7d\r\n\x7b\x7b/b\x7d\x7d\n5\n6\n7"

theorem excerpt_around_line_crossed :
    ∃ f, parse .standard crossedLines = .error (.malformed f) ∧
      f.shown = "    2 | 2\n    3 | \x7b\x7b#a\x7d\x7d\n  > 4 | \x7b\x7b/b\x7d\x7d\n    5 | 5\n    6 | 6\n" ∧
      ShowsAround crossedLines.toList 4 f.shown := by
  have hparse : parse .standard crossedLines =
      .error (.malformed ⟨.crossedBlock "a" "b", 12, crossedLines⟩) := by decide +kernel
  have hend : ¬AtEmptyEnd crossedLines.toList 4 := fun h => absurd h.1 (by decide +kernel)
  exact ⟨_, hparse, by decide +kernel, (excerpt_around_line hparse).1 hend⟩

/-- A block without a closing tag, which is missed on the empty line behind it. -/
def unclosedLine : String := "\x7b\x7b#a\x7d\x7d\n"

/-- No line is marked, the one with the problem is not shown. -/
theorem excerpt_misses_last_line :
    ∃ f, parse .standard unclosedLine = .error (.malformed f) ∧ f.place.line = 2 ∧
      f.shown = "    1 | \x7b\x7b#a\x7d\x7d\n" ∧ ¬ShowsAround unclosedLine.toList 2 f.shown := by
  have hparse : parse .standard unclosedLine =
      .error (.malformed ⟨.unclosedBlock "a", 7, unclosedLine⟩) := by decide +kernel
  refine ⟨_, hparse, by decide +kernel, by decide +kernel, ?_⟩
  -- a marked row has a marker, and there is none in the excerpt
  rintro ⟨entries, hrows, -, hcount⟩
  obtain ⟨entry, hentry, hmarked⟩ := List.countP_pos_iff.1 (show 0 < _ by rw [hcount]; decide)
  exact absurd (hrows.marker hentry (of_decide_eq_true hmarked)) (by decide +kernel)

end TagTemplate
