import Mathlib.Data.Finset.Card
import TagTemplate.Callable.Recipe
import TagTemplate.Proofs.Engine.Work

/-!
# Which trees are one tree

What the shelf of an engine that keeps trees holds after any deeds. Main statements:
`Shelf.Becomes.books`, a deed keeps the books of the shelf right, and `work_books`, so do any deeds:
there is one tree for each template that was read since the shelf was last cleared; `same_tree_iff`,
two readings give one tree if they are of one template and the shelf is not cleared in between;
`trees_shared`, the same of whole calls.
-/

namespace TagTemplate

/-! ## Books -/

/-- What a tree is kept under. -/
def KeptTree.key (kept : KeptTree) : String × Delimiters := (kept.template, kept.delimiters)

/-- The template, with its delimiters, that is read with success. -/
def Deed.parsed? : Deed → Option (String × Delimiters)
  | .read template d => if (parse d template).isOk then some (template, d) else none
  | _ => none

/-- The templates that were read with success since the shelf was last cleared, latest first. -/
def parsedPairs (deeds : List Deed) : List (String × Delimiters) :=
  (deeds.reverse.takeWhile (· ≠ .clear)).filterMap Deed.parsed?

theorem parsedPairs_snoc (deeds : List Deed) (deed : Deed) :
    parsedPairs (deeds ++ [deed]) =
      if deed = .clear then [] else deed.parsed?.toList ++ parsedPairs deeds := by
  rw [parsedPairs, List.reverse_append, List.reverse_singleton, List.singleton_append,
    List.takeWhile_cons]
  by_cases hclear : deed = .clear
  · rw [if_pos hclear, if_neg (by simp [hclear])]
    rfl
  · rw [if_neg hclear, if_pos (by simp [hclear]), List.filterMap_cons]
    cases deed.parsed? <;> rfl

theorem parsedPairs_read_ok {deeds : List Deed} {template : String} {d : Delimiters}
    (h : (parse d template).isOk = true) :
    parsedPairs (deeds ++ [.read template d]) = (template, d) :: parsedPairs deeds := by
  rw [parsedPairs_snoc, if_neg nofun, Deed.parsed?, if_pos h]
  rfl

/-- Only what can be read has been read. -/
theorem isOk_of_mem_parsedPairs {deeds : List Deed} {template : String} {d : Delimiters}
    (h : (template, d) ∈ parsedPairs deeds) : (parse d template).isOk = true := by
  obtain ⟨deed, -, hparsed⟩ := List.mem_filterMap.1 h
  cases deed with
  | read template' d' =>
    rw [Deed.parsed?] at hparsed
    split at hparsed
    · next hok =>
      cases hparsed
      exact hok
    · cases hparsed
  | ask name => cases hparsed
  | clear => cases hparsed

namespace Shelf

/-- What happened since the shelf was last cleared, latest first. -/
def recent (s : Shelf) : List Event := s.journal.takeWhile (· ≠ .cleared)

theorem recent_note {s : Shelf} {event : Event} (h : event ≠ .cleared) :
    (s.note event).recent = event :: s.recent := by
  rw [recent, note, List.takeWhile_cons_of_pos (by simpa using h)]
  rfl

/-- The trees are kept under different keys, and each has a serial number of its own, which was
given out before. -/
structure Tidy (s : Shelf) : Prop where
  keys : (s.trees.map KeptTree.key).Nodup
  serials : (s.trees.map (·.tree.serial)).Nodup
  given : ∀ kept ∈ s.trees, kept.tree.serial < s.nextSerial

/-- The shelf holds what the deeds have come to, and its journal tells of each search and of each
tree that was put there. -/
structure Books (s : Shelf) (deeds : List Deed) : Prop where
  tidy : s.Tidy
  kept : ∀ key, key ∈ s.trees.map KeptTree.key ↔ key ∈ parsedPairs deeds
  puts : ∀ template d, s.recent.count (.kept template d) =
    if (template, d) ∈ parsedPairs deeds then 1 else 0
  searches : ∀ template d, s.journal.count (.reused template d) +
    s.journal.count (.reading template d) = deeds.count (.read template d)

/-- The serial number was given out, and belongs to no tree of the shelf any more. -/
structure Lost (s : Shelf) (serial : Nat) : Prop where
  given : serial < s.nextSerial
  gone : ∀ kept ∈ s.trees, kept.tree.serial ≠ serial

/-- What a deed makes of a shelf where trees are kept: a tree is found, a template is refused, or
its tree is made and put there; a text is asked for; the shelf is cleared. -/
inductive Becomes (s : Shelf) : Deed → Shelf → Prop
  | found {template : String} {d : Delimiters} {tree : SharedTree} :
      s.find? template d = some tree →
      Becomes s (.read template d) (s.note (.reused template d))
  | refused {template : String} {d : Delimiters} {fault : Fault} :
      s.find? template d = none → parse d template = .error fault →
      Becomes s (.read template d) (s.note (.reading template d))
  | made {template : String} {d : Delimiters} {nodes : List Node} :
      s.find? template d = none → parse d template = .ok nodes →
      Becomes s (.read template d)
        { trees := ⟨template, d, ⟨s.nextSerial, nodes⟩⟩ :: s.trees
          nextSerial := s.nextSerial + 1
          journal := .kept template d :: .reading template d :: s.journal }
  | asked (name : String) : Becomes s (.ask name) (s.note (.asked name))
  | cleared : Becomes s .clear ⟨[], s.nextSerial, .cleared :: s.journal⟩

variable {s : Shelf} {template : String} {d : Delimiters} {tree : SharedTree}

theorem mem_of_find? (h : s.find? template d = some tree) : ⟨template, d, tree⟩ ∈ s.trees := by
  obtain ⟨kept, hkept, rfl⟩ := Option.map_eq_some_iff.1 h
  have hkey := List.find?_some hkept
  simp only [Bool.and_eq_true, beq_iff_eq] at hkey
  obtain ⟨rfl, rfl⟩ := hkey
  exact List.mem_of_find?_eq_some hkept

theorem key_not_mem_of_find? (h : s.find? template d = none) :
    (template, d) ∉ s.trees.map KeptTree.key := by
  intro hmem
  obtain ⟨kept, hkept, hkey⟩ := List.mem_map.1 hmem
  have hnone := List.find?_eq_none.1 (Option.map_eq_none_iff.1 h) kept hkept
  cases hkey
  simp at hnone

namespace Tidy

theorem cleared (nextSerial : Nat) (journal : List Event) : Tidy ⟨[], nextSerial, journal⟩ :=
  ⟨List.nodup_nil, List.nodup_nil, nofun⟩

theorem empty : Tidy {} := cleared _ _

/-- The key tells a kept tree. -/
theorem eq_of_key (h : s.Tidy) {a b : KeptTree} (ha : a ∈ s.trees) (hb : b ∈ s.trees)
    (hkey : a.key = b.key) : a = b :=
  List.inj_on_of_nodup_map h.keys ha hb hkey

/-- The serial number tells a kept tree. -/
theorem eq_of_serial (h : s.Tidy) {a b : KeptTree} (ha : a ∈ s.trees) (hb : b ∈ s.trees)
    (hserial : a.tree.serial = b.tree.serial) : a = b :=
  List.inj_on_of_nodup_map h.serials ha hb hserial

theorem note (h : s.Tidy) (event : Event) : (s.note event).Tidy := ⟨h.keys, h.serials, h.given⟩

/-- A tree with the next serial number is put under a new key. -/
theorem put (h : s.Tidy) (hfind : s.find? template d = none) (nodes : List Node)
    (journal : List Event) :
    Tidy ⟨⟨template, d, ⟨s.nextSerial, nodes⟩⟩ :: s.trees, s.nextSerial + 1, journal⟩ := by
  refine ⟨List.nodup_cons.2 ⟨key_not_mem_of_find? hfind, h.keys⟩,
    List.nodup_cons.2 ⟨fun hmem => ?_, h.serials⟩,
    List.forall_mem_cons.2 ⟨Nat.lt_succ_self _, fun kept hkept => ?_⟩⟩
  · -- the next serial number is larger than all that were given out
    obtain ⟨kept, hkept, hserial⟩ := List.mem_map.1 hmem
    exact absurd hserial (Nat.ne_of_lt (h.given kept hkept))
  · exact Nat.lt_succ_of_lt (h.given kept hkept)

end Tidy

namespace Books

variable {deeds : List Deed}

theorem empty : Books {} [] := ⟨.empty, fun _ => Iff.rfl, fun _ _ => rfl, fun _ _ => rfl⟩

/-- A deed that puts no tree on the shelf, and is not told of as if it did. -/
theorem note (h : s.Books deeds) {event : Event} {deed : Deed} (hcleared : event ≠ .cleared)
    (hkept : ∀ template d, event ≠ .kept template d)
    (hpairs : ∀ key, key ∈ parsedPairs (deeds ++ [deed]) ↔ key ∈ parsedPairs deeds)
    (hsearch : ∀ template d, [event].count (.reused template d) +
      [event].count (.reading template d) = [deed].count (.read template d)) :
    (s.note event).Books (deeds ++ [deed]) where
  tidy := h.tidy.note event
  kept key := (h.kept key).trans (hpairs key).symm
  puts template d := by
    rw [recent_note hcleared, List.count_cons_of_ne (hkept template d), h.puts]
    simp only [hpairs]
  searches template d := by
    have hbefore := h.searches template d
    have hdeed := hsearch template d
    rw [List.count_append, Shelf.note, ← List.singleton_append, List.count_append,
      List.count_append]
    omega

theorem reuse (h : s.Books deeds) (hfind : s.find? template d = some tree) :
    (s.note (.reused template d)).Books (deeds ++ [.read template d]) := by
  have hmem : (template, d) ∈ parsedPairs deeds :=
    (h.kept _).1 (List.mem_map.2 ⟨_, mem_of_find? hfind, rfl⟩)
  refine h.note nofun nofun (fun key => ?_) fun t d' => ?_
  · rw [parsedPairs_read_ok (isOk_of_mem_parsedPairs hmem), List.mem_cons]
    exact ⟨fun hkey => hkey.elim (fun heq => heq ▸ hmem) id, .inr⟩
  · simp [List.count_cons]

theorem refuse (h : s.Books deeds) {fault : Fault} (hparse : parse d template = .error fault) :
    (s.note (.reading template d)).Books (deeds ++ [.read template d]) := by
  refine h.note nofun nofun (fun key => ?_) fun t d' => ?_
  · rw [parsedPairs_snoc, if_neg nofun, Deed.parsed?, hparse]
    rfl
  · simp [List.count_cons]

theorem make (h : s.Books deeds) (hfind : s.find? template d = none) {nodes : List Node}
    (hparse : parse d template = .ok nodes) :
    Books ⟨⟨template, d, ⟨s.nextSerial, nodes⟩⟩ :: s.trees, s.nextSerial + 1,
      .kept template d :: .reading template d :: s.journal⟩ (deeds ++ [.read template d]) := by
  have hpairs : parsedPairs (deeds ++ [.read template d]) = (template, d) :: parsedPairs deeds :=
    parsedPairs_read_ok (by rw [hparse]; rfl)
  refine ⟨h.tidy.put hfind nodes _, fun key => ?_, fun t d' => ?_, fun t d' => ?_⟩
  · rw [hpairs, List.map_cons, List.mem_cons, List.mem_cons, h.kept]
    rfl
  · have hnew : (template, d) ∉ parsedPairs deeds :=
      fun hmem => key_not_mem_of_find? hfind ((h.kept _).2 hmem)
    have hrecent : recent ⟨⟨template, d, ⟨s.nextSerial, nodes⟩⟩ :: s.trees, s.nextSerial + 1,
        .kept template d :: .reading template d :: s.journal⟩ =
        .kept template d :: .reading template d :: s.recent := by
      simp [recent]
    have hbefore : (Event.reading template d :: s.recent).count (.kept t d') =
        if (t, d') ∈ parsedPairs deeds then 1 else 0 := by
      have hevent : Event.reading template d ≠ .kept t d' := nofun
      rw [List.count_cons_of_ne hevent, h.puts]
    rw [hrecent, hpairs, List.count_cons, hbefore]
    by_cases hkey : (t, d') = (template, d)
    · cases hkey
      simp [hnew]
    · have hevent : ¬(template = t ∧ d = d') := fun heq => hkey (by rw [heq.1, heq.2])
      simp [hkey, hevent]
  · rw [List.count_append, ← h.searches]
    simp [List.count_cons]
    omega

theorem ask (h : s.Books deeds) (name : String) :
    (s.note (.asked name)).Books (deeds ++ [.ask name]) := by
  refine h.note nofun nofun (fun key => ?_) fun _ _ => rfl
  rw [parsedPairs_snoc, if_neg nofun]
  rfl

theorem clear (h : s.Books deeds) :
    Books ⟨[], s.nextSerial, .cleared :: s.journal⟩ (deeds ++ [.clear]) := by
  have hpairs : parsedPairs (deeds ++ [.clear]) = [] := by rw [parsedPairs_snoc, if_pos rfl]
  refine ⟨.cleared _ _, fun key => ?_, fun t d' => ?_, fun t d' => ?_⟩
  · rw [hpairs]
    exact Iff.rfl
  · rw [hpairs]
    rfl
  · rw [List.count_append, ← h.searches]
    simp

end Books

namespace Becomes

variable {s' : Shelf} {deed : Deed}

/-- One more deed is entered into the books. -/
theorem books (h : s.Becomes deed s') {deeds : List Deed} (hbooks : s.Books deeds) :
    s'.Books (deeds ++ [deed]) := by
  cases h with
  | found hfind => exact hbooks.reuse hfind
  | refused _ hparse => exact hbooks.refuse hparse
  | made hfind hparse => exact hbooks.make hfind hparse
  | asked name => exact hbooks.ask name
  | cleared => exact hbooks.clear

theorem tidy (h : s.Becomes deed s') (htidy : s.Tidy) : s'.Tidy := by
  cases h with
  | found | refused | asked => exact htidy.note _
  | made hfind _ => exact htidy.put hfind _ _
  | cleared => exact .cleared _ _

/-- A tree stays on the shelf until the shelf is cleared. -/
theorem mem (h : s.Becomes deed s') {kept : KeptTree} (hkept : kept ∈ s.trees)
    (hclear : deed ≠ .clear) : kept ∈ s'.trees := by
  cases h with
  | found | refused | asked => exact hkept
  | made => exact List.mem_cons_of_mem _ hkept
  | cleared => exact absurd rfl hclear

/-- A serial number that is lost stays so. -/
theorem lost (h : s.Becomes deed s') {serial : Nat} (hlost : s.Lost serial) : s'.Lost serial := by
  cases h with
  | found | refused | asked => exact ⟨hlost.given, hlost.gone⟩
  | made =>
    exact ⟨Nat.lt_succ_of_lt hlost.given,
      List.forall_mem_cons.2 ⟨Nat.ne_of_gt hlost.given, hlost.gone⟩⟩
  | cleared => exact ⟨hlost.given, nofun⟩

/-- Clearing the shelf loses every serial number that was given out. -/
theorem lost_of_given (h : s.Becomes .clear s') {serial : Nat} (hgiven : serial < s.nextSerial) :
    s'.Lost serial := by
  cases h
  exact ⟨hgiven, nofun⟩

theorem nextSerial_le (h : s.Becomes deed s') : s.nextSerial ≤ s'.nextSerial := by
  cases h with
  | found | refused | asked | cleared => exact Nat.le_refl _
  | made => exact Nat.le_succ _

end Becomes

end Shelf

namespace Engine

variable {e : Engine} {s : Shelf}

/-- What a deed makes of a shelf where trees are kept. -/
theorem deed_becomes (hkeeps : e.keepsTrees = true) (s : Shelf) (deed : Deed) :
    s.Becomes deed (e.deed s deed) := by
  cases deed with
  | read template d =>
    have hreading := read_reading hkeeps (some d) template s
    rw [Engine.deed]
    generalize e.read (some d) template s = outcome at hreading ⊢
    cases hreading with
    | found hfind => exact .found hfind
    | refused hfind hparse => exact .refused hfind hparse
    | made hfind hparse => exact .made hfind hparse
  | ask name => exact .asked name
  | clear =>
    rw [Engine.deed, clear, if_pos hkeeps]
    exact .cleared

theorem work_tidy (hkeeps : e.keepsTrees = true) (h : s.Tidy) (deeds : List Deed) :
    (e.work s deeds).Tidy := by
  induction deeds generalizing s with
  | nil => exact h
  | cons deed deeds ih => exact ih ((deed_becomes hkeeps s deed).tidy h)

/-- The books stay right, deed by deed. -/
theorem work_books (hkeeps : e.keepsTrees = true) {before : List Deed} (h : s.Books before)
    (deeds : List Deed) : (e.work s deeds).Books (before ++ deeds) := by
  induction deeds generalizing s before with
  | nil => rwa [List.append_nil]
  | cons deed deeds ih =>
    have hrest := ih ((deed_becomes hkeeps s deed).books h)
    rwa [List.append_assoc, List.singleton_append] at hrest

/-! ## Trees -/

variable {template : String} {d : Delimiters} {tree : SharedTree}

/-- A tree that is given out is on the shelf. -/
theorem kept_of_read (hkeeps : e.keepsTrees = true)
    (h : (e.read (some d) template s).1 = .ok tree) :
    ⟨template, d, tree⟩ ∈ (e.deed s (.read template d)).trees := by
  have hreading := read_reading hkeeps (some d) template s
  rw [deed]
  generalize e.read (some d) template s = outcome at hreading h ⊢
  cases hreading with
  | found hfind =>
    cases h
    exact Shelf.mem_of_find? hfind
  | refused _ _ => cases h
  | made _ _ =>
    cases h
    exact List.mem_cons_self

theorem kept_work (hkeeps : e.keepsTrees = true) {kept : KeptTree} (h : kept ∈ s.trees)
    {deeds : List Deed} (hclear : .clear ∉ deeds) : kept ∈ (e.work s deeds).trees := by
  induction deeds generalizing s with
  | nil => exact h
  | cons deed deeds ih =>
    obtain ⟨hdeed, hdeeds⟩ := List.ne_and_not_mem_of_not_mem_cons hclear
    exact ih ((deed_becomes hkeeps s deed).mem h (Ne.symm hdeed)) hdeeds

theorem lost_work (hkeeps : e.keepsTrees = true) {serial : Nat} (h : s.Lost serial)
    (deeds : List Deed) : (e.work s deeds).Lost serial := by
  induction deeds generalizing s with
  | nil => exact h
  | cons deed deeds ih => exact ih ((deed_becomes hkeeps s deed).lost h)

/-- The serial numbers that were given out are lost when the shelf is cleared. -/
theorem lost_of_clear (hkeeps : e.keepsTrees = true) {serial : Nat} (h : serial < s.nextSerial)
    {deeds : List Deed} (hclear : .clear ∈ deeds) : (e.work s deeds).Lost serial := by
  induction deeds generalizing s with
  | nil => cases hclear
  | cons deed deeds ih =>
    rcases List.mem_cons.1 hclear with rfl | hdeeds
    · exact lost_work hkeeps ((deed_becomes hkeeps s .clear).lost_of_given h) deeds
    · exact ih (Nat.lt_of_lt_of_le h (deed_becomes hkeeps s deed).nextSerial_le) hdeeds

/-- Two readings, the second one some deeds after the first one, give one tree exactly if they are
of one template under the same delimiters and the shelf is not cleared in between. -/
theorem same_tree_iff (hkeeps : e.keepsTrees = true) (htidy : s.Tidy) {t₁ t₂ : String}
    {d₁ d₂ : Delimiters} {a b : SharedTree} {between : List Deed}
    (ha : (e.read (some d₁) t₁ s).1 = .ok a)
    (hb : (e.read (some d₂) t₂ (e.work s (.read t₁ d₁ :: between))).1 = .ok b) :
    a.serial = b.serial ↔ t₁ = t₂ ∧ d₁ = d₂ ∧ .clear ∉ between := by
  have hstart := (deed_becomes hkeeps s (.read t₁ d₁)).tidy htidy
  have hkept := kept_of_read hkeeps ha
  have hbecomes := deed_becomes hkeeps (e.work s (.read t₁ d₁ :: between)) (.read t₂ d₂)
  have hend := hbecomes.tidy (work_tidy hkeeps htidy (.read t₁ d₁ :: between))
  have hkept' := kept_of_read hkeeps hb
  by_cases hclear : .clear ∈ between
  · have hlost := hbecomes.lost (lost_of_clear hkeeps (hstart.given _ hkept) hclear)
    exact ⟨fun heq => absurd heq.symm (hlost.gone _ hkept'), fun h => absurd hclear h.2.2⟩
  · -- both trees are on the shelf at the end, where keys and serial numbers tell them apart
    have hstays := hbecomes.mem (kept_work hkeeps hkept hclear) nofun
    constructor
    · intro heq
      obtain ⟨rfl, rfl, rfl⟩ := KeptTree.mk.inj (hend.eq_of_serial hstays hkept' heq)
      exact ⟨rfl, rfl, hclear⟩
    · rintro ⟨rfl, rfl, -⟩
      obtain ⟨-, -, rfl⟩ := KeptTree.mk.inj (hend.eq_of_key hstays hkept' rfl)
      rfl

/-- A template that is refused changes no tree on the shelf. -/
theorem trees_of_refused (hkeeps : e.keepsTrees = true) (δ : Option Delimiters) (template : String)
    (s : Shelf) {fault : Fault} (h : (e.read δ template s).1 = .error fault) :
    (e.read δ template s).2.trees = s.trees := by
  have hreading := read_reading hkeeps δ template s
  generalize e.read δ template s = outcome at hreading h ⊢
  cases hreading with
  | found _ => cases h
  | refused _ _ => rfl
  | made _ _ => cases h

end Engine

/-! ## Calls -/

/-- The accounts of a shelf after deeds. -/
structure Shelf.Accounts (s : Shelf) (deeds : List Deed) : Prop where
  /-- There is one entry for each template that was read with success since the last clearing. -/
  entries : s.trees.length = (parsedPairs deeds).toFinset.card
  /-- Each of them was put there once. -/
  puts : ∀ template d, s.recent.count (.kept template d) =
    if (template, d) ∈ parsedPairs deeds then 1 else 0
  /-- Each reading searched the shelf once. -/
  searches : ∀ template d, s.journal.count (.reused template d) +
    s.journal.count (.reading template d) = deeds.count (.read template d)

theorem Shelf.Books.accounts {s : Shelf} {deeds : List Deed} (h : s.Books deeds) :
    s.Accounts deeds := by
  refine ⟨?_, h.puts, h.searches⟩
  have hkeys : (s.trees.map KeptTree.key).toFinset = (parsedPairs deeds).toFinset := by
    ext key
    rw [List.mem_toFinset, List.mem_toFinset, h.kept]
  rw [← hkeys, List.toFinset_card_of_nodup h.tidy.keys, List.length_map]

/-- What stands in the one list has what belongs to it at the same place of the other list. -/
theorem forall₂_getElem? {α β : Type} {R : α → β → Prop} {l₁ : List α} {l₂ : List β}
    (h : List.Forall₂ R l₁ l₂) {i : Nat} {a : α} (ha : l₁[i]? = some a) :
    ∃ b, l₂[i]? = some b ∧ R a b := by
  induction h generalizing i with
  | nil => cases ha
  | @cons x y l₁ l₂ hxy _ ih =>
    cases i with
    | zero =>
      cases ha
      exact ⟨y, rfl, hxy⟩
    | succ i => exact ih ha

theorem flatten_split {work : List (List Deed)} {i : Nat} {deeds : List Deed}
    (hi : work[i]? = some deeds) :
    work.flatten = (work.take i).flatten ++ (deeds ++ (work.drop (i + 1)).flatten) := by
  obtain ⟨hlength, rfl⟩ := List.getElem?_eq_some_iff.1 hi
  rw [← List.flatten_cons, ← List.drop_eq_getElem_cons hlength, ← List.flatten_append,
    List.take_append_drop]

theorem flatten_take {work : List (List Deed)} {i j : Nat} (hij : i < j) {deeds : List Deed}
    (hi : work[i]? = some deeds) :
    (work.take j).flatten =
      (work.take i).flatten ++ (deeds ++ ((work.take j).drop (i + 1)).flatten) := by
  have hi' : (work.take j)[i]? = some deeds := by rw [List.getElem?_take, if_pos hij, hi]
  rw [flatten_split hi', List.take_take, Nat.min_eq_left (Nat.le_of_lt hij)]

theorem clear_mem_between {calls : List Call} {work : List (List Deed)}
    (h : List.Forall₂ (fun call deeds => .clear ∈ deeds ↔ call = .clear) calls work) (i j : Nat) :
    .clear ∈ ((work.take j).drop (i + 1)).flatten ↔
      ∃ k, i < k ∧ k < j ∧ calls[k]? = some .clear := by
  rw [List.mem_flatten]
  constructor
  · rintro ⟨deeds, hdeeds, hclear⟩
    obtain ⟨k, hk⟩ := List.mem_iff_getElem?.1 hdeeds
    rw [List.getElem?_drop, List.getElem?_take] at hk
    split at hk
    · next hlt =>
      obtain ⟨call, hcall, hclears⟩ := forall₂_getElem? h.flip hk
      exact ⟨i + 1 + k, by omega, hlt, hcall.trans (congrArg some (hclears.1 hclear))⟩
    · cases hk
  · rintro ⟨k, hik, hkj, hcall⟩
    obtain ⟨deeds, hdeeds, hclears⟩ := forall₂_getElem? h hcall
    refine ⟨deeds, List.mem_iff_getElem?.2 ⟨k - (i + 1), ?_⟩, hclears.2 rfl⟩
    rw [List.getElem?_drop, List.getElem?_take, if_pos (by omega), ← hdeeds]
    congr 1
    omega

/-- The tree of a reply. -/
def treeOf? : Except Fault Reply → Option SharedTree
  | .ok (.tree tree) => some tree
  | _ => none

theorem treeOf?_eq_some {reply : Except Fault Reply} {tree : SharedTree}
    (h : treeOf? reply = some tree) : reply = .ok (.tree tree) := by
  rcases reply with _ | _ | _ | _ <;> cases h
  rfl

theorem tree_of_reply {read : Except Fault SharedTree} {tree : SharedTree}
    (h : some (.ok (.tree tree)) = some (read.map Reply.tree)) : read = .ok tree := by
  cases read with
  | error fault => cases h
  | ok found =>
    cases h
    rfl

/-- Whatever is called on an engine that keeps trees: after any number of the calls the shelf is
what the deeds that are listed for them make of it. At every point of the list it has one entry for
each template that was read with success since it was last cleared, by itself or in a rendering,
which was put there once, and it was searched once for each reading. A template that is refused
changes no entry. Two calls to read give one tree exactly if they are for one template under the
same delimiters, and no call between them clears the shelf. -/
theorem trees_shared {σ : Type} {e : Engine} (hkeeps : e.keepsTrees = true)
    (callables : Callables σ) (budget : Nat) (memory : σ) (scopes : Nat → Scope)
    {calls : List Call} {replies : List (Except Fault Reply)} {session : Session σ}
    (h : e.answerAll budget callables (.fresh memory scopes) calls = some (replies, session)) :
    ∃ work, e.allDeeds budget callables (.fresh memory scopes) calls = some work ∧
      session.shelf = e.work {} work.flatten ∧
      (∀ i, ∃ middle, e.answerAll budget callables (.fresh memory scopes) (calls.take i) =
        some (replies.take i, middle) ∧ middle.shelf = e.work {} (work.take i).flatten) ∧
      (∀ deeds, deeds <+: work.flatten → (e.work {} deeds).Accounts deeds) ∧
      (∀ δ template s fault, (e.read δ template s).1 = .error fault →
        (e.read δ template s).2.trees = s.trees) ∧
      ∀ (i j : Nat) (t₁ t₂ : String) (δ₁ δ₂ : Option Delimiters) (a b : SharedTree), i < j →
        calls[i]? = some (.read t₁ δ₁) → replies[i]? = some (.ok (.tree a)) →
        calls[j]? = some (.read t₂ δ₂) → replies[j]? = some (.ok (.tree b)) →
        (a.serial = b.serial ↔ t₁ = t₂ ∧ δ₁.getD e.delimiters = δ₂.getD e.delimiters ∧
          ∀ k, i < k → k < j → calls[k]? ≠ some .clear) := by
  obtain ⟨work, hwork, hshelf, hread⟩ := answerAll_works ⟨rfl, rfl⟩ Shelf.sound_empty h
  have hlists := Engine.allDeeds_forall₂ hwork
  have hclears : List.Forall₂ (fun call deeds => .clear ∈ deeds ↔ call = .clear) calls work :=
    hlists.imp fun _ _ ⟨_, _, hdeeds⟩ => Engine.clear_mem_deeds_iff hdeeds
  refine ⟨work, hwork, hshelf, fun i => ?_, fun deeds _ => ?_, fun δ template s fault => ?_, ?_⟩
  · obtain ⟨middle, hmiddle⟩ := Engine.answerAll_take h i
    obtain ⟨first, hfirst, hshelf, -⟩ := answerAll_works ⟨rfl, rfl⟩ Shelf.sound_empty hmiddle
    obtain rfl := Option.some.inj (hfirst.symm.trans (Engine.allDeeds_take hwork i))
    exact ⟨middle, hmiddle, hshelf⟩
  · exact (Engine.work_books hkeeps .empty deeds).accounts
  · exact Engine.trees_of_refused hkeeps δ template s
  · intro i j t₁ t₂ δ₁ δ₂ a b hij hi ha hj hb
    obtain ⟨deeds, hdeeds, _, _, hfirst⟩ := forall₂_getElem? hlists hi
    cases hfirst
    have hnone : (∀ k, i < k → k < j → calls[k]? ≠ some .clear) ↔
        .clear ∉ ((work.take j).drop (i + 1)).flatten := by
      rw [clear_mem_between hclears]
      simp only [not_exists, not_and, ne_eq]
    rw [hnone]
    have htidy := Engine.work_tidy hkeeps .empty (work.take i).flatten
    have hfirst := tree_of_reply (ha.symm.trans (hread i t₁ δ₁ hi))
    have hsecond := tree_of_reply (hb.symm.trans (hread j t₂ δ₂ hj))
    rw [flatten_take hij hdeeds, Engine.work_append] at hsecond
    exact Engine.same_tree_iff hkeeps htidy hfirst hsecond

/-- A template that includes a text, which is moved to the right, and that has a block of it
rendered by a transformer. -/
def outerTemplate : String := " \x7b\x7b>p\x7d\x7d\n\x7b\x7b#f\x7d\x7dy\x7b\x7b/f\x7d\x7d"

/-- The template is rendered. Then the text that it included is read, something that is no template
is, and the text is read again, before the shelf is cleared and after that. -/
def movedTextCalls : List Call :=
  [.render outerTemplate (.object [("f", .transformer 0)]) (some fun _ => some "x") {},
    .read " x" none, .read "\x7b\x7b" none, .read " x" (some .standard), .clear, .read " x" none]

def movedTextDeeds : List (List Deed) :=
  [[.read outerTemplate .standard, .ask "p", .read " x" .standard, .read "y" .standard],
    [.read " x" .standard], [.read "\x7b\x7b" .standard], [.read " x" .standard], [.clear],
    [.read " x" .standard]]

/-- The shelf after so many of the calls. -/
def movedTextShelf (i : Nat) : Shelf := ({} : Engine).work {} (movedTextDeeds.take i).flatten

theorem exists_tree {replies : List (Except Fault Reply)} {trees : List Bool}
    (h : replies.map (fun reply => (treeOf? reply).isSome) = trees) {i : Nat}
    (hi : trees[i]? = some true) : ∃ tree, replies[i]? = some (.ok (.tree tree)) := by
  rw [← h, List.getElem?_map] at hi
  obtain ⟨reply, hreply, hsome⟩ := Option.map_eq_some_iff.1 hi
  obtain ⟨tree, htree⟩ := Option.isSome_iff_exists.1 hsome
  exact ⟨tree, hreply.trans (congrArg some (treeOf?_eq_some htree))⟩

/-- The rendering leaves three trees on the shelf, of which the included text is found when it is
read by itself. What is refused is searched for and not put there. After the clearing there is one
tree, and the included text has been searched for four times in all. -/
theorem trees_shared_movedText :
    ({} : Engine).keepsTrees = true ∧ ∃ replies session a b c,
      ({} : Engine).answerAll 2 (.ofRecipes #[.transformer .render])
        (.fresh [] fun _ => .root .null) movedTextCalls = some (replies, session) ∧
      ({} : Engine).allDeeds 2 (.ofRecipes #[.transformer .render])
        (.fresh [] fun _ => .root .null) movedTextCalls = some movedTextDeeds ∧
      session.shelf = movedTextShelf 6 ∧
      (movedTextShelf 1).trees.length = 3 ∧ (movedTextShelf 3).trees.length = 3 ∧
      session.shelf.trees.length = 1 ∧
      (movedTextShelf 3).recent.count (.kept " x" .standard) = 1 ∧
      (movedTextShelf 3).recent.count (.kept "\x7b\x7b" .standard) = 0 ∧
      session.shelf.recent.count (.kept " x" .standard) = 1 ∧
      (movedTextShelf 1).journal.count (.reused " x" .standard) +
        (movedTextShelf 1).journal.count (.reading " x" .standard) = 1 ∧
      (movedTextShelf 3).journal.count (.reused "\x7b\x7b" .standard) +
        (movedTextShelf 3).journal.count (.reading "\x7b\x7b" .standard) = 1 ∧
      session.shelf.journal.count (.reused " x" .standard) +
        session.shelf.journal.count (.reading " x" .standard) = 4 ∧
      replies[1]? = some (.ok (.tree a)) ∧ replies[3]? = some (.ok (.tree b)) ∧
      replies[5]? = some (.ok (.tree c)) ∧ a.serial = b.serial ∧ b.serial ≠ c.serial := by
  have hlisted : ({} : Engine).allDeeds 2 (.ofRecipes #[.transformer .render])
      (.fresh [] fun _ => .root .null) movedTextCalls = some movedTextDeeds := by decide +kernel
  have htrees : (({} : Engine).answerAll 2 (.ofRecipes #[.transformer .render])
      (.fresh [] fun _ => .root .null) movedTextCalls).map
        (fun answer => answer.1.map fun reply => (treeOf? reply).isSome) =
      some [false, true, false, true, false, true] := by decide +kernel
  obtain ⟨⟨replies, session⟩, hanswer, hreplies⟩ := Option.map_eq_some_iff.1 htrees
  obtain ⟨a, ha⟩ := exists_tree (i := 1) hreplies rfl
  obtain ⟨b, hb⟩ := exists_tree (i := 3) hreplies rfl
  obtain ⟨c, hc⟩ := exists_tree (i := 5) hreplies rfl
  obtain ⟨work, hwork, hshelf, -, haccounts, -, hshared⟩ :=
    trees_shared rfl (.ofRecipes #[.transformer .render]) 2 [] (fun _ => .root .null) hanswer
  obtain rfl : work = movedTextDeeds := Option.some.inj (hwork.symm.trans hlisted)
  have hat (i : Nat) : (movedTextShelf i).Accounts (movedTextDeeds.take i).flatten :=
    haccounts _ ⟨(movedTextDeeds.drop i).flatten, by
      rw [← List.flatten_append, List.take_append_drop]⟩
  have hend : session.shelf.Accounts movedTextDeeds.flatten :=
    hshelf ▸ haccounts _ (List.prefix_refl _)
  refine ⟨rfl, replies, session, a, b, c, hanswer, hlisted, hshelf, ?_, ?_, ?_, ?_, ?_, ?_, ?_, ?_,
    ?_, ha, hb, hc, ?_, ?_⟩
  · exact (hat 1).entries.trans (by decide +kernel)
  · exact (hat 3).entries.trans (by decide +kernel)
  · exact hend.entries.trans (by decide +kernel)
  · exact ((hat 3).puts " x" .standard).trans (by decide +kernel)
  · exact ((hat 3).puts "\x7b\x7b" .standard).trans (by decide +kernel)
  · exact (hend.puts " x" .standard).trans (by decide +kernel)
  · exact ((hat 1).searches " x" .standard).trans (by decide +kernel)
  · exact ((hat 3).searches "\x7b\x7b" .standard).trans (by decide +kernel)
  · exact (hend.searches " x" .standard).trans (by decide +kernel)
  · refine (hshared 1 3 " x" " x" none (some .standard) a b (by decide) rfl ha rfl hb).2
      ⟨rfl, rfl, fun k hk hk' => ?_⟩
    obtain rfl : k = 2 := by omega
    exact nofun
  · intro heq
    obtain ⟨-, -, hclear⟩ :=
      (hshared 3 5 " x" " x" (some .standard) none b c (by decide) rfl hb rfl hc).1 heq
    exact hclear 4 (by decide) (by decide) rfl

end TagTemplate
