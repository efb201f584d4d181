import TagTemplate.Proofs.Template.Acceptance
import TagTemplate.Proofs.Template.Reflow

/-!
# What stays of a template that is moved to the right

The outline of a tree leaves its texts aside, and the positions. Main statements: `outlines_nest`,
the outline is a matter of what the tags say; `reflow_keeps_template`, a template that is moved can
be read if it could be read before, and then it has the same outline; otherwise it has the same kind
of fault. Only keys that go over several lines change, and different ones stay different.
-/

namespace TagTemplate

/-- What a tag says, and what stands inside its block. -/
inductive Outline where
  | node (kind : TagKind) (key : String) (inside : List Outline)
  deriving Repr

mutual

/-- A node without texts and positions, every key changed by `f`. -/
def Node.outline (f : String → String) : Node → List Outline
  | .text .. => []
  | .escaped key _ _ => [.node .escaped (f key) []]
  | .unescaped key _ _ => [.node .unescaped (f key) []]
  | .inclusion key _ _ _ => [.node .inclusion (f key) []]
  | .block key _ _ children _ => [.node .block (f key) (outlines f children)]
  | .inverted key _ _ children _ => [.node .inverted (f key) (outlines f children)]

/-- A tree without texts and positions, every key changed by `f`. -/
def outlines (f : String → String) : List Node → List Outline
  | [] => []
  | n :: ns => n.outline f ++ outlines f ns

end

/-- The same problem, with every key changed by `f`. -/
def SyntaxProblem.mapKeys (f : String → String) : SyntaxProblem → SyntaxProblem
  | .unclosedTag closing => .unclosedTag closing
  | .unopenedBlock key => .unopenedBlock (f key)
  | .crossedBlock opened closed => .crossedBlock (f opened) (f closed)
  | .unclosedBlock key => .unclosedBlock (f key)
  | .custom detail => .custom detail

/-- The same fault somewhere else, with every key changed by `f`. -/
inductive Fault.Elsewhere (f : String → String) : Fault → Fault → Prop
  | malformed (problem : SyntaxProblem) (pos pos' : Nat) (source source' : String) :
      Elsewhere f (.malformed ⟨problem, pos, source⟩)
        (.malformed ⟨problem.mapKeys f, pos', source'⟩)
  | refused (key : String) :
      Elsewhere f (.invalid (.delimiterPair key)) (.invalid (.delimiterPair (f key)))

/-- A template and another text that are read alike, but for a change of all keys. -/
structure ReadAlike (d : Delimiters) (f : String → String) (template other : String) : Prop where
  accepted : (∃ nodes, parse d other = .ok nodes) ↔ ∃ nodes, parse d template = .ok nodes
  fault : ∀ fault fault', parse d template = .error fault → parse d other = .error fault' →
    fault.Elsewhere f fault' ∧ fault'.kindName = fault.kindName
  outline : ∀ nodes nodes', parse d template = .ok nodes → parse d other = .ok nodes' →
    outlines id nodes' = outlines f nodes

/-! ## Outlines and tags -/

section

variable {f : String → String}

theorem outlines_append (f : String → String) (ns ms : List Node) :
    outlines f (ns ++ ms) = outlines f ns ++ outlines f ms := by
  induction ns with
  | nil => rfl
  | cons n ns ih => rw [List.cons_append, outlines, outlines, ih, List.append_assoc]

/-- Two nestings with the same outlines, but for a change of all keys. -/
structure Nesting.Parallel (f : String → String) (n n' : Nesting) : Prop where
  openBlocks : List.Forall₂ (fun b b' : OpenBlock => b'.isInverted = b.isInverted ∧
    b'.key = f b.key ∧ outlines id b'.inside.reverse = outlines f b.inside.reverse)
    n.openBlocks n'.openBlocks
  done : outlines id n'.done.reverse = outlines f n.done.reverse

namespace Nesting.Parallel

variable {n n' : Nesting}

theorem add (h : Parallel f n n') (ns ns' : List Node) (hns : outlines id ns' = outlines f ns) :
    Parallel f (ns.foldl Nesting.add n) (ns'.foldl Nesting.add n') := by
  obtain ⟨openBlocks, done⟩ := n
  obtain ⟨openBlocks', done'⟩ := n'
  obtain ⟨hblocks, hdone⟩ := h
  cases hblocks with
  | nil =>
    rw [foldl_add_done, foldl_add_done]
    refine ⟨.nil, ?_⟩
    show outlines id (ns'.reverse ++ done').reverse = outlines f (ns.reverse ++ done).reverse
    rw [List.reverse_append, List.reverse_append, List.reverse_reverse, List.reverse_reverse,
      outlines_append, outlines_append, hdone, hns]
  | cons hblock houter =>
    obtain ⟨hinverted, hkey, hinside⟩ := hblock
    rw [foldl_add_inside, foldl_add_inside]
    refine ⟨.cons ⟨hinverted, hkey, ?_⟩ houter, hdone⟩
    dsimp only
    rw [List.reverse_append, List.reverse_append, List.reverse_reverse, List.reverse_reverse,
      outlines_append, outlines_append, hinside, hns]

theorem leave (h : Parallel f n n') (t u : Tag) : Parallel f (n.leave t) (n'.leave u) := by
  obtain ⟨openBlocks, done⟩ := n
  obtain ⟨openBlocks', done'⟩ := n'
  obtain ⟨hblocks, hdone⟩ := h
  cases hblocks with
  | nil => exact ⟨.nil, hdone⟩
  | @cons b b' outer outer' hblock houter =>
    obtain ⟨hinverted, hkey, hinside⟩ := hblock
    have hclose : outlines id [b'.close u.start] = outlines f [b.close t.start] := by
      rw [OpenBlock.close, OpenBlock.close, hinverted]
      split <;> simp [outlines, Node.outline, hkey, hinside]
    have haround : Parallel f ⟨outer, done⟩ ⟨outer', done'⟩ := ⟨houter, hdone⟩
    exact haround.add [b.close t.start] [b'.close u.start] hclose

/-- Tags that say the same, but for the change of the key. -/
theorem tag (h : Parallel f n n') {t u : Tag} (hlabel : u.label = (t.kind, f t.key))
    (m m' : Margin) : Parallel f (n.step (.tag t m)) (n'.step (.tag u m')) := by
  have hkind : u.kind = t.kind := congrArg Prod.fst hlabel
  have hkey : u.key = f t.key := congrArg Prod.snd hlabel
  have hleaf {node node' : Node} (hnode : node'.outline id = node.outline f) :
      Parallel f (n.add node) (n'.add node') :=
    h.add [node] [node'] (by rw [outlines, outlines, hnode]; rfl)
  simp only [step, hkind]
  cases t.kind with
  | escaped | unescaped | inclusion => exact hleaf (by simp [Node.outline, hkey])
  | block | inverted => exact ⟨.cons ⟨rfl, hkey, rfl⟩ h.openBlocks, h.done⟩
  | blockEnd => exact h.leave t u
  | comment | delimiters => exact h

/-- Texts leave the outlines as they are. -/
theorem texts (h : Parallel f n n') {ps : List Part} (hps : partTags ps = []) :
    Parallel f n (ps.foldl step n') := by
  induction ps generalizing n' with
  | nil => exact h
  | cons p ps ih =>
    cases p with
    | tag => cases hps
    | text text start stop =>
      exact ih (h.add [] [.text text start stop] rfl) hps

/-- Parts with the same tags, but for the change of the keys. -/
theorem foldl (h : Parallel f n n') {ps ps' : List Part}
    (hlabels : (partTags ps').map Tag.label = (partTags ps).map fun t => (t.kind, f t.key)) :
    Parallel f (ps.foldl step n) (ps'.foldl step n') := by
  induction ps generalizing n n' ps' with
  | nil => exact h.texts (List.map_eq_nil_iff.1 hlabels)
  | cons p ps ih =>
    cases p with
    | text text start stop =>
      exact ih (h.add [.text text start stop] [] rfl) hlabels
    | tag t m =>
      obtain ⟨u, us, htags, hu, hus⟩ := List.map_eq_cons_iff.1 hlabels
      obtain ⟨texts, m', rest, rfl, htexts, rfl⟩ := partTags_eq_cons htags
      rw [List.foldl_append]
      exact ih ((h.texts htexts).tag hu m m') hus

end Nesting.Parallel

/-- The outline of a tree is a matter of what its tags say. -/
theorem outlines_nest {ps ps' : List Part}
    (hlabels : (partTags ps').map Tag.label = (partTags ps).map fun t => (t.kind, f t.key)) :
    outlines id (nest ps') = outlines f (nest ps) := by
  have hstart : Nesting.Parallel f {} {} := ⟨.nil, rfl⟩
  exact (hstart.foldl hlabels).done

end

/-! ## Faults -/

section

variable {f : String → String} {α β γ δ : Type}

theorem Fault.Elsewhere.kindName {fault fault' : Fault} (h : fault.Elsewhere f fault') :
    fault'.kindName = fault.kindName := by
  cases h <;> rfl

/-- Two results that are related, or two faults that are the same somewhere else. -/
inductive AlikeResults (f : String → String) (V : α → β → Prop) :
    Except Fault α → Except Fault β → Prop
  | ok {a : α} {b : β} : V a b → AlikeResults f V (.ok a) (.ok b)
  | error {fault fault' : Fault} :
      fault.Elsewhere f fault' → AlikeResults f V (.error fault) (.error fault')

theorem AlikeResults.accepted {V : α → β → Prop} {x : Except Fault α} {y : Except Fault β}
    (h : AlikeResults f V x y) : (∃ b, y = .ok b) ↔ ∃ a, x = .ok a := by
  cases h with
  | @ok a b => exact ⟨fun _ => ⟨a, rfl⟩, fun _ => ⟨b, rfl⟩⟩
  | error => exact ⟨nofun, nofun⟩

theorem AlikeResults.bind {V : α → β → Prop} {W : γ → δ → Prop} {x : Except Fault α}
    {y : Except Fault β} {g : α → Except Fault γ} {h : β → Except Fault δ}
    (hxy : AlikeResults f V x y) (hgh : ∀ a b, V a b → AlikeResults f W (g a) (h b)) :
    AlikeResults f W (x >>= g) (y >>= h) := by
  cases hxy with
  | ok hv => exact hgh _ _ hv
  | error hfault => exact .error hfault

variable {source source' : String}

/-- A closing tag finds its key on the stack if it did before the change of all keys. -/
theorem keysAfter_alike (hf : f.Injective) {t u : Tag} (hlabel : u.label = (t.kind, f t.key))
    (keys : List String) : AlikeResults f (fun after after' => after' = after.map f)
      (t.keysAfter source keys) (u.keysAfter source' (keys.map f)) := by
  have hkind : u.kind = t.kind := congrArg Prod.fst hlabel
  have hkey : u.key = f t.key := congrArg Prod.snd hlabel
  simp only [Tag.keysAfter, hkind, hkey]
  cases t.kind with
  | block | inverted | escaped | unescaped | inclusion | comment | delimiters => exact .ok rfl
  | blockEnd =>
    cases keys with
    | nil => exact .error (.malformed (.unopenedBlock t.key) ..)
    | cons key outer =>
      by_cases hsame : key = t.key
      · simp only [List.map_cons, hsame, if_true]
        exact .ok rfl
      · have hother : f key ≠ f t.key := fun heq => hsame (hf heq)
        simp only [List.map_cons, hsame, hother, if_false]
        exact .error (.malformed (.crossedBlock key t.key) ..)

theorem keysThrough_alike (hf : f.Injective) {ts us : List Tag}
    (hlabels : us.map Tag.label = ts.map fun t => (t.kind, f t.key)) (keys : List String) :
    AlikeResults f (fun after after' => after' = after.map f) (keysThrough source keys ts)
      (keysThrough source' (keys.map f) us) := by
  induction ts generalizing us keys with
  | nil =>
    rw [List.map_eq_nil_iff.1 hlabels]
    exact .ok rfl
  | cons t ts ih =>
    obtain ⟨u, us, rfl, hu, hus⟩ := List.map_eq_cons_iff.1 hlabels
    rw [keysThrough_cons, keysThrough_cons]
    refine (keysAfter_alike hf hu keys).bind ?_
    rintro after _ rfl
    exact ih hus after

end

/-! ## Keys that are moved -/

section

variable {margin : List Char}

theorem indent_cons_ne_nil (fresh : Bool) (c : Char) (cs : List Char) :
    indent margin fresh (c :: cs) ≠ [] := by
  rw [indent]
  split <;> simp

/-- A line that is moved does not start with a line feed. -/
theorem lineFeed_ne_moved (hmargin : '\n' ∉ margin) (fresh : Bool) {c : Char} (hc : c ≠ '\n')
    (cs rest : List Char) : '\n' :: rest ≠ (if fresh then margin else []) ++ c :: cs := by
  intro heq
  cases fresh with
  | false => exact hc (List.cons.inj heq).1.symm
  | true =>
    cases margin with
    | nil => exact hc (List.cons.inj heq).1.symm
    | cons x more => exact hmargin ((List.cons.inj heq).1 ▸ List.mem_cons_self)

/-- Texts that differ differ when they are moved, since a line is told by its end. -/
theorem indent_injective (hmargin : '\n' ∉ margin) (fresh : Bool) {cs cs' : List Char}
    (h : indent margin fresh cs = indent margin fresh cs') : cs = cs' := by
  induction cs generalizing fresh cs' with
  | nil =>
    cases cs' with
    | nil => rfl
    | cons c' cs' => exact absurd h.symm (indent_cons_ne_nil fresh c' cs')
  | cons c cs ih =>
    cases cs' with
    | nil => exact absurd h (indent_cons_ne_nil fresh c cs)
    | cons c' cs' =>
      by_cases hc : c = '\n' <;> by_cases hc' : c' = '\n'
      · subst hc hc'
        exact congrArg _ (ih true (List.cons.inj h).2)
      · subst hc
        rw [indent_lineFeed, indent_cons hc'] at h
        exact (lineFeed_ne_moved hmargin fresh hc' _ _ h).elim
      · subst hc'
        rw [indent_lineFeed, indent_cons hc] at h
        exact (lineFeed_ne_moved hmargin fresh hc _ _ h.symm).elim
      · rw [indent_cons hc, indent_cons hc'] at h
        obtain ⟨rfl, hrest⟩ := List.cons.inj (List.append_cancel_left h)
        rw [ih false hrest]

theorem indentKey_injective (hmargin : '\n' ∉ margin) : (indentKey margin).Injective := by
  intro key key' h
  rw [indentKey, indentKey, String.ofList_inj] at h
  exact String.toList_inj.1 (indent_injective hmargin false h)

theorem indentKey_line {key : String} (h : '\n' ∉ key.toList) : indentKey margin key = key := by
  rw [indentKey, indent_line h, String.ofList_toList]

theorem plainIndentation_line (indentation : List Char) :
    '\n' ∉ plainIndentation indentation := by
  intro h
  have hplain := (List.mem_filter.1 h).2
  cases hplain

/-! ## Templates that are moved -/

variable {d : Delimiters}

/-- What the end means for the open blocks, it means when it is moved. -/
theorem Ending.Moved.conclude {ending ending' : Ending} (h : ending.Moved margin ending')
    (source source' : String) (draft draft' : Draft) (keys : List String) :
    AlikeResults (indentKey margin) (fun _ _ => True) (ending.conclude source ⟨draft, keys⟩)
      (ending'.conclude source' ⟨draft', keys.map (indentKey margin)⟩) := by
  cases h with
  | finished =>
    cases keys with
    | nil => exact .ok trivial
    | cons key outer => exact .error (.malformed (.unclosedBlock key) ..)
  | @unclosed closing => exact .error (.malformed (.unclosedTag closing) ..)
  | refused => exact .error (.refused _)

/-- A template that is moved is read as it was, or has the same fault somewhere else. -/
theorem read_moved (hmargin : Blanks margin) (hline : '\n' ∉ margin) (hd : d.BlankFree)
    (template : String) (fresh : Bool) :
    AlikeResults (indentKey margin) (fun _ _ => True)
      ((Cursor.start template.toList).read template d {})
      ((Cursor.start (String.ofList (indent margin fresh template.toList)).toList).read
        (String.ofList (indent margin fresh template.toList)) d {}) := by
  obtain ⟨hends, htags⟩ := Pieces.ofText_moved hmargin hd template fresh
  rw [draft_eq, draft_eq]
  refine (keysThrough_alike (indentKey_injective hline) htags []).bind ?_
  rintro keys _ rfl
  exact hends.conclude ..

/-- A template that is moved has the same outline, if both are read. -/
theorem outlines_moved (hmargin : Blanks margin) (hd : d.BlankFree) {template : String}
    {fresh : Bool} {nodes nodes' : List Node} (h : parse d template = .ok nodes)
    (h' : parse d (String.ofList (indent margin fresh template.toList)) = .ok nodes') :
    outlines id nodes' = outlines (indentKey margin) nodes := by
  obtain ⟨-, htags⟩ := Pieces.ofText_moved hmargin hd template fresh
  obtain ⟨-, -, rfl⟩ := parse_eq_ok_iff.1 h
  obtain ⟨-, -, rfl⟩ := parse_eq_ok_iff.1 h'
  refine outlines_nest ?_
  rw [tagsOf_layout, tagsOf_layout]
  exact htags

end

/-- Whatever the indentation and whatever stands before the tag that includes it, a template that is
moved to the right is read if it was read before; then it has the same outline, and otherwise the
same kind of fault. Keys on one line stay as they are, and different keys stay different. -/
theorem reflow_keeps_template {d : Delimiters} (hd : d.BlankFree) (template : String)
    (indentation : List Char) (afterText : Bool) :
    ∃ f : String → String, f.Injective ∧ (∀ key, '\n' ∉ key.toList → f key = key) ∧
      ReadAlike d f template (String.ofList (reflow template.toList indentation afterText)) := by
  have hmargin := blanks_plainIndentation indentation
  have hline := plainIndentation_line indentation
  refine ⟨indentKey (plainIndentation indentation), indentKey_injective hline,
    fun key => indentKey_line, ?_⟩
  rw [reflow_eq]
  have hread := read_moved hmargin hline hd template (!afterText)
  have hparse (template : String) : (∃ nodes, parse d template = .ok nodes) ↔
      ∃ draft, (Cursor.start template.toList).read template d {} = .ok draft := by
    simp only [parse_eq_ok_iff_draft]
    exact ⟨fun ⟨_, draft, hdraft, _⟩ => ⟨draft, hdraft⟩,
      fun ⟨draft, hdraft⟩ => ⟨_, draft, hdraft, rfl⟩⟩
  constructor
  · rw [hparse, hparse]
    exact hread.accepted
  · intro fault fault' h h'
    rw [parse_eq_error_iff_draft.1 h, parse_eq_error_iff_draft.1 h'] at hread
    cases hread with
    | error hfault => exact ⟨hfault, hfault.kindName⟩
  · intro nodes nodes' h h'
    exact outlines_moved hmargin hd h h'

/-- A block whose key goes over two lines, a comment, and delimiters that are changed. -/
def brokenLines : String :=
  "\x7b\x7b#a\nb\x7d\x7d\x7b\x7b!\n\x7d\x7d\x7b\x7b=<\n>=\x7d\x7d<x></a\nb>"

def brokenLinesMoved : String :=
  "\x7b\x7b#a\n\tb\x7d\x7d\x7b\x7b!\n\t\x7d\x7d\x7b\x7b=<\n\t>=\x7d\x7d<x></a\n\tb>"

/-- The two ends of the block have one key still. -/
theorem reflow_keeps_template_lines :
    Delimiters.standard.BlankFree ∧
    String.ofList (reflow brokenLines.toList "\t.".toList true) = brokenLinesMoved ∧
    (∃ nodes, parse .standard brokenLinesMoved = .ok nodes) ∧
    ∃ f : String → String, f.Injective ∧ (∀ key, '\n' ∉ key.toList → f key = key) ∧
      ReadAlike .standard f brokenLines brokenLinesMoved := by
  have hd : Delimiters.standard.BlankFree := by decide
  have hread : parse .standard brokenLines =
      .ok [.block "a\nb" 0 8 [.escaped "x" 23 26] 26] := by decide +kernel
  have hmoved : String.ofList (reflow brokenLines.toList "\t.".toList true) =
      brokenLinesMoved := by decide +kernel
  obtain ⟨f, hf, hkeys, halike⟩ := reflow_keeps_template hd brokenLines "\t.".toList true
  rw [hmoved] at halike
  exact ⟨hd, hmoved, halike.accepted.2 ⟨_, hread⟩, f, hf, hkeys, halike⟩

end TagTemplate
