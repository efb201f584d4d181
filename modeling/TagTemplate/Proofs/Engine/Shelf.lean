import TagTemplate.Engine.Shelf

/-!
# What a shelf holds

A shelf is sound if each kept tree is the tree of the template it is kept under. Main
statements: `Engine.read_spec`, reading a template keeps a shelf sound, also when it fails, and
yields what the text says, whether trees are kept or not; `Engine.read_same`, so two engines that
differ in that only read the same.
-/

namespace TagTemplate

/-- Each kept tree is what its template says under its delimiters. -/
def Shelf.Sound (s : Shelf) : Prop :=
  ∀ kept ∈ s.trees, parse kept.delimiters kept.template = .ok kept.tree.nodes

namespace Shelf

theorem sound_empty : Sound {} := by
  intro kept hkept
  cases hkept

theorem Sound.note {s : Shelf} (h : s.Sound) (e : Event) : (s.note e).Sound := h

theorem Sound.find {s : Shelf} (h : s.Sound) {template : String} {d : Delimiters}
    {tree : SharedTree} (hfind : s.find? template d = some tree) :
    parse d template = .ok tree.nodes := by
  obtain ⟨kept, hkept, rfl⟩ := Option.map_eq_some_iff.1 hfind
  have hkey := List.find?_some hkept
  simp only [Bool.and_eq_true, beq_iff_eq] at hkey
  obtain ⟨rfl, rfl⟩ := hkey
  exact h kept (List.mem_of_find?_eq_some hkept)

end Shelf

namespace Engine

/-- Reading anew leaves the kept trees alone, and yields what the text says. -/
theorem readAnew_spec (template : String) (d : Delimiters) (s : Shelf) :
    (readAnew template d s).1.map SharedTree.nodes = parse d template ∧
      (readAnew template d s).2.trees = s.trees := by
  rw [readAnew]
  cases parse d template <;> exact ⟨rfl, rfl⟩

/-- What comes of reading a template where trees are kept: its tree is found, or the template is
refused, or its tree is made and kept. -/
inductive Reading (template : String) (d : Delimiters) (s : Shelf) :
    Except Fault SharedTree × Shelf → Prop
  | found {tree : SharedTree} : s.find? template d = some tree →
      Reading template d s (.ok tree, s.note (.reused template d))
  | refused {fault : Fault} : s.find? template d = none → parse d template = .error fault →
      Reading template d s (.error fault, s.note (.reading template d))
  | made {nodes : List Node} : s.find? template d = none → parse d template = .ok nodes →
      Reading template d s (.ok ⟨s.nextSerial, nodes⟩,
        { trees := ⟨template, d, ⟨s.nextSerial, nodes⟩⟩ :: s.trees
          nextSerial := s.nextSerial + 1
          journal := .kept template d :: .reading template d :: s.journal })

theorem read_reading {e : Engine} (hkeeps : e.keepsTrees = true) (delimiters : Option Delimiters)
    (template : String) (s : Shelf) :
    Reading template (delimiters.getD e.delimiters) s (e.read delimiters template s) := by
  rw [read, if_pos hkeeps]
  cases hfind : s.find? template (delimiters.getD e.delimiters) with
  | some tree => exact .found hfind
  | none =>
    cases hparse : parse (delimiters.getD e.delimiters) template with
    | error fault =>
      simp only [readAnew, hparse]
      exact .refused hfind hparse
    | ok nodes =>
      simp only [readAnew, hparse]
      exact .made hfind hparse

/-- Reading keeps a shelf sound and yields what the text says, whether trees are kept or not. -/
theorem read_spec (e : Engine) (delimiters : Option Delimiters) (template : String) {s : Shelf}
    (hs : s.Sound) :
    (e.read delimiters template s).1.map SharedTree.nodes =
        parse (delimiters.getD e.delimiters) template ∧
      (e.read delimiters template s).2.Sound := by
  cases hkeeps : e.keepsTrees with
  | false =>
    obtain ⟨hresult, htrees⟩ := readAnew_spec template (delimiters.getD e.delimiters) s
    rw [read, if_neg (by rw [hkeeps]; exact Bool.false_ne_true)]
    exact ⟨hresult, fun kept hkept => hs kept (htrees ▸ hkept)⟩
  | true =>
    have hreading := read_reading hkeeps delimiters template s
    generalize e.read delimiters template s = outcome at hreading ⊢
    cases hreading with
    | found hfind => exact ⟨(hs.find hfind).symm, hs.note _⟩
    | refused _ hparse => exact ⟨hparse.symm, hs.note _⟩
    | made _ hparse => exact ⟨hparse.symm, List.forall_mem_cons.2 ⟨hparse, hs⟩⟩

/-- Two engines with the same delimiters read the same on sound shelves: the same nodes, which are
what the text says, or the same fault. -/
theorem read_same {e₁ e₂ : Engine} (hd : e₁.delimiters = e₂.delimiters)
    (delimiters : Option Delimiters) (template : String) {a b : Shelf} (ha : a.Sound)
    (hb : b.Sound) :
    (∃ fault, (e₁.read delimiters template a).1 = .error fault ∧
      (e₂.read delimiters template b).1 = .error fault ∧
      parse (delimiters.getD e₁.delimiters) template = .error fault) ∨
    ∃ tree₁ tree₂, (e₁.read delimiters template a).1 = .ok tree₁ ∧
      (e₂.read delimiters template b).1 = .ok tree₂ ∧ tree₁.nodes = tree₂.nodes ∧
      parse (delimiters.getD e₁.delimiters) template = .ok tree₁.nodes := by
  have h₁ := (e₁.read_spec delimiters template ha).1
  have h₂ := (e₂.read_spec delimiters template hb).1
  rw [← hd, ← h₁] at h₂
  rw [← h₁]
  cases hresult₁ : (e₁.read delimiters template a).1 with
  | error fault =>
    cases hresult₂ : (e₂.read delimiters template b).1 with
    | ok tree => rw [hresult₁, hresult₂] at h₂; cases h₂
    | error fault₂ =>
      rw [hresult₁, hresult₂] at h₂
      cases h₂
      exact .inl ⟨fault, rfl, rfl, rfl⟩
  | ok tree₁ =>
    cases hresult₂ : (e₂.read delimiters template b).1 with
    | error fault₂ => rw [hresult₁, hresult₂] at h₂; cases h₂
    | ok tree₂ =>
      rw [hresult₁, hresult₂] at h₂
      exact .inr ⟨tree₁, tree₂, rfl, rfl, (Except.ok.inj h₂).symm, rfl⟩

theorem clear_sound (e : Engine) {s : Shelf} (hs : s.Sound) : (e.clear s).Sound := by
  rw [clear]
  split
  · intro kept hkept
    cases hkept
  · exact hs

end Engine

end TagTemplate
