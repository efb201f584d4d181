import TagTemplate.Text.Offset

/-!
# Texts at byte offsets

`Stands source text pos`: the text is what `source` has from byte `pos` on. Main statements:
`Stands.append`, texts that meet make one; `Stands.slice`, a text that stands somewhere is cut
out by its two positions; `Boundary.slice`, two boundaries cut out a text.
-/

namespace TagTemplate

/-- A text stands in a longer one, from a position on. -/
def Stands (source text : List Char) (pos : Nat) : Prop :=
  ∃ before after, source = before ++ (text ++ after) ∧ byteLength before = pos

/-- No character lies across the position, which is within the text. -/
def Boundary (source : List Char) (pos : Nat) : Prop :=
  ∃ before after, source = before ++ after ∧ byteLength before = pos

/-- A position tells what is before it. -/
theorem append_inj_of_byteLength {a b a' b' : List Char} (h : a ++ b = a' ++ b')
    (hlen : byteLength a = byteLength a') : a = a' ∧ b = b' := by
  have hsplit := splitAtByte?_append a b
  rw [h, hlen, splitAtByte?_append] at hsplit
  obtain ⟨ha, hb⟩ := Prod.mk.inj (Option.some.inj hsplit)
  exact ⟨ha.symm, hb.symm⟩

theorem byteLength_pos {cs : List Char} (h : cs ≠ []) : 0 < byteLength cs := by
  cases cs with
  | nil => exact absurd rfl h
  | cons c cs =>
    have := c.utf8Size_pos
    rw [byteLength_cons]
    omega

/-- What precedes a position is at the front of the text. -/
theorem prefix_beforeByte (cs : List Char) (n : Nat) : beforeByte cs n <+: cs := by
  induction cs generalizing n with
  | nil => exact List.prefix_rfl
  | cons c cs ih =>
    rw [beforeByte]
    split
    · exact (List.prefix_cons_inj c).2 (ih _)
    · exact List.nil_prefix

/-- What precedes a position behind a text. -/
theorem beforeByte_append (a b : List Char) (n : Nat) :
    beforeByte (a ++ b) (byteLength a + n) = a ++ beforeByte b n := by
  induction a with
  | nil => rw [byteLength_nil, Nat.zero_add, List.nil_append, List.nil_append]
  | cons c a ih =>
    have hsub : c.utf8Size + byteLength a + n - c.utf8Size = byteLength a + n := by omega
    rw [List.cons_append, beforeByte, byteLength_cons, if_pos (by omega), hsub, ih,
      List.cons_append]

namespace Stands

variable {source a b : List Char} {pos : Nat}

/-- Texts that meet make one. -/
theorem append (ha : Stands source a pos) (hb : Stands source b (pos + byteLength a)) :
    Stands source (a ++ b) pos := by
  obtain ⟨before, after, hsource, rfl⟩ := ha
  obtain ⟨before', after', hsource', hlen⟩ := hb
  have hmeet : before ++ a ++ after = before' ++ (b ++ after') := by
    rw [List.append_assoc, ← hsource, hsource']
  obtain ⟨rfl, rfl⟩ := append_inj_of_byteLength hmeet (by rw [byteLength_append, hlen])
  exact ⟨before, after', by rw [hsource, List.append_assoc], rfl⟩

/-- The two positions of a text cut it out. -/
theorem slice (h : Stands source a pos) : slice? source pos (pos + byteLength a) = some a := by
  obtain ⟨before, after, rfl, rfl⟩ := h
  rw [slice?, if_pos (Nat.le_add_right ..), splitAtByte?_append, Option.bind_some,
    Nat.add_sub_cancel_left]
  simp only [splitAtByte?_append, Option.map_some]

theorem start_boundary (h : Stands source a pos) : Boundary source pos := by
  obtain ⟨before, after, hsource, hpos⟩ := h
  exact ⟨before, _, hsource, hpos⟩

theorem stop_boundary (h : Stands source a pos) : Boundary source (pos + byteLength a) := by
  obtain ⟨before, after, hsource, rfl⟩ := h
  exact ⟨before ++ a, after, by rw [hsource, List.append_assoc], byteLength_append ..⟩

end Stands

/-- What two positions cut out stands between them. -/
theorem slice?_eq_some_iff {cs text : List Char} {start stop : Nat} :
    slice? cs start stop = some text ↔ Stands cs text start ∧ stop = start + byteLength text := by
  constructor
  · intro h
    rw [slice?] at h
    split at h
    · obtain ⟨⟨before, rest⟩, hstart, h⟩ := Option.bind_eq_some_iff.1 h
      obtain ⟨⟨middle, after⟩, hstop, rfl⟩ := Option.map_eq_some_iff.1 h
      obtain ⟨rfl, hbefore⟩ := splitAtByte?_eq_some hstart
      obtain ⟨rfl, hmiddle⟩ := splitAtByte?_eq_some hstop
      exact ⟨⟨before, after, rfl, hbefore⟩, by simp only at hmiddle ⊢; omega⟩
    · cases h
  · rintro ⟨hstands, rfl⟩
    exact hstands.slice

theorem Stands.append_right {cs text : List Char} {pos : Nat} (h : Stands cs text pos)
    (more : List Char) : Stands (cs ++ more) text pos := by
  obtain ⟨before, after, rfl, hpos⟩ := h
  exact ⟨before, after ++ more, by simp, hpos⟩

theorem Stands.append_left {cs text : List Char} {pos : Nat} (h : Stands cs text pos)
    (front : List Char) : Stands (front ++ cs) text (byteLength front + pos) := by
  obtain ⟨before, after, rfl, rfl⟩ := h
  exact ⟨front ++ before, after, by simp, byteLength_append ..⟩

/-- Between two boundaries there is a text. -/
theorem Boundary.slice {source : List Char} {start stop : Nat} (hstart : Boundary source start)
    (hstop : Boundary source stop) (hle : start ≤ stop) :
    ∃ text, slice? source start stop = some text := by
  obtain ⟨a, b, hsource, rfl⟩ := hstart
  obtain ⟨a', b', hsource', rfl⟩ := hstop
  rcases List.append_eq_append_iff.1 (hsource.symm.trans hsource') with
    ⟨text, rfl, rfl⟩ | ⟨text, rfl, rfl⟩
  · rw [byteLength_append]
    exact ⟨text, Stands.slice ⟨a, b', hsource, rfl⟩⟩
  · have hempty : text = [] := by
      cases text with
      | nil => rfl
      | cons c text =>
        have hpos := byteLength_pos (List.cons_ne_nil c text)
        rw [byteLength_append] at hle
        omega
    subst hempty
    have hnothing : Stands source [] (byteLength a') := ⟨a', b, by simpa using hsource, rfl⟩
    exact ⟨[], by simpa using hnothing.slice⟩

theorem Boundary.le {source : List Char} {pos : Nat} (h : Boundary source pos) :
    pos ≤ byteLength source := by
  obtain ⟨before, after, rfl, rfl⟩ := h
  rw [byteLength_append]
  omega

end TagTemplate
