import TagTemplate.Proofs.Escape
import Mathlib.Logic.ExistsUnique

/-!
# Escaped text read back

Escaping loses nothing: whoever replaces the entities of an escaped text by their characters has
the text again, whatever the text contained, entities and pieces of them too. Which character an
entity stands for is said by a table of the reader (`entityTable`), and escaping writes by the same
table (`entity?_eq_some_iff`). What carries the rest is that no entity is the beginning of another
(`entity_unique`), so that a text has one entity at its front at most (`frontEntity?_eq_some_iff`).
Main statement: `escaping_lossless`.
-/

namespace TagTemplate

/-! ## The entity at the front of a text -/

/-- The eight entities that can be read, each behind the character it stands for. -/
def entityTable : List (Char × List Char) :=
  [('&', "&amp;".toList), ('<', "&lt;".toList), ('>', "&gt;".toList), ('"', "&quot;".toList),
    ('\'', "&#39;".toList), ('/', "&#x2F;".toList), ('\x60', "&#x60;".toList),
    ('=', "&#x3D;".toList)]

/-- The character that the entity at the front of a text stands for, and what is behind the
entity. -/
def frontEntity? (cs : List Char) : Option (Char × List Char) :=
  entityTable.findSome? fun entry =>
    if entry.2 <+: cs then some (entry.1, cs.drop entry.2.length) else none

/-- A character is written as the entity that is read as the character. -/
theorem entity?_eq_some_iff {c : Char} {entity : List Char} :
    entity? c = some entity ↔ (c, entity) ∈ entityTable := by
  constructor
  · intro h
    rw [entity?.eq_def] at h
    split at h
    case h_9 => cases h
    all_goals
      cases h
      decide
  · have written : ∀ entry ∈ entityTable, entity? entry.1 = some entry.2 := by decide
    exact written (c, entity)

theorem mem_entities {c : Char} {entity : List Char} (h : (c, entity) ∈ entityTable) :
    entity ∈ entities := by
  have listed : ∀ entry ∈ entityTable, entry.2 ∈ entities := by decide
  exact listed (c, entity) h

/-- No entity is the beginning of another one. -/
theorem entity_unique {a b cs : List Char} (ha : a ∈ entities) (hb : b ∈ entities)
    (hacs : a <+: cs) (hbcs : b <+: cs) : a = b := by
  have prefixFree : ∀ a ∈ entities, ∀ b ∈ entities, a <+: b → a = b := by decide
  rcases List.prefix_or_prefix_of_prefix hacs hbcs with hab | hba
  · exact prefixFree a ha b hb hab
  · exact (prefixFree b hb a ha hba).symm

/-- An entity stands for one character. -/
theorem entityTable_unique {c c' : Char} {entity : List Char} (h : (c, entity) ∈ entityTable)
    (h' : (c', entity) ∈ entityTable) : c = c' := by
  have different : ∀ a ∈ entityTable, ∀ b ∈ entityTable, a.2 = b.2 → a.1 = b.1 := by decide
  exact different (c, entity) h (c', entity) h' rfl

theorem frontEntity?_eq_some_iff {c : Char} {cs rest : List Char} :
    frontEntity? cs = some (c, rest) ↔
      ∃ entity, (c, entity) ∈ entityTable ∧ cs = entity ++ rest := by
  have sound : ∀ {c rest}, frontEntity? cs = some (c, rest) →
      ∃ entity, (c, entity) ∈ entityTable ∧ cs = entity ++ rest := by
    intro c rest h
    unfold frontEntity? at h
    obtain ⟨⟨c', entity⟩, hentity, h⟩ := List.exists_of_findSome?_eq_some h
    obtain ⟨hstarts, h⟩ := Option.ite_none_right_eq_some.1 h
    cases h
    exact ⟨entity, hentity, (List.prefix_iff_eq_append.1 hstarts).symm⟩
  constructor
  · exact sound
  · rintro ⟨entity, hentity, rfl⟩
    cases hfront : frontEntity? (entity ++ rest) with
    | none =>
      have hnone := List.findSome?_eq_none_iff.1 hfront (c, entity) hentity
      rw [if_pos (List.prefix_append entity rest)] at hnone
      cases hnone
    | some found =>
      obtain ⟨entity', hentity', hsplit⟩ := sound hfront
      have hsame : entity' = entity := entity_unique (mem_entities hentity') (mem_entities hentity)
        (hsplit ▸ List.prefix_append entity' found.2) (List.prefix_append entity rest)
      subst hsame
      have hrest : found.2 = rest := (List.append_cancel_left hsplit).symm
      have hchar : found.1 = c := entityTable_unique hentity' hentity
      rw [← hrest, ← hchar]

/-- Every entity starts with an ampersand. -/
theorem frontEntity?_plain {c : Char} (hc : c ≠ '&') (cs : List Char) :
    frontEntity? (c :: cs) = none := by
  cases hfront : frontEntity? (c :: cs) with
  | none => rfl
  | some found =>
    obtain ⟨entity, hentity, hsplit⟩ := frontEntity?_eq_some_iff.1 hfront
    have starts : ∀ entity ∈ entities, entity.head? = some '&' := by decide
    obtain ⟨name, rfl⟩ := List.head?_eq_some_iff.1 (starts entity (mem_entities hentity))
    exact absurd (List.cons.inj hsplit).1 hc

theorem frontEntity?_length {c : Char} {cs rest : List Char}
    (h : frontEntity? cs = some (c, rest)) : rest.length < cs.length := by
  obtain ⟨entity, hentity, rfl⟩ := frontEntity?_eq_some_iff.1 h
  have nonempty : ∀ entity ∈ entities, 0 < entity.length := by decide
  have hpos := nonempty entity (mem_entities hentity)
  rw [List.length_append]
  omega

/-! ## Reading -/

/-- The text with its entities replaced, from left to right, by the characters they stand for. -/
def unescape : List Char → List Char
  | [] => []
  | c :: cs =>
    match h : frontEntity? (c :: cs) with
    | some found =>
      have := frontEntity?_length h
      found.1 :: unescape found.2
    | none => c :: unescape cs
termination_by cs => cs.length
decreasing_by
  · exact this
  · exact Nat.lt_succ_self cs.length

def unescapeHtml (text : String) : String := String.ofList (unescape text.toList)

theorem unescape_nil : unescape [] = [] := by
  unfold unescape
  rfl

/-- An entity is read as its character, whatever follows. -/
theorem unescape_entity {c : Char} {entity : List Char} (h : (c, entity) ∈ entityTable)
    (rest : List Char) : unescape (entity ++ rest) = c :: unescape rest := by
  have hfront : frontEntity? (entity ++ rest) = some (c, rest) :=
    frontEntity?_eq_some_iff.2 ⟨entity, h, rfl⟩
  obtain ⟨first, cs, hcons⟩ : ∃ first cs, entity ++ rest = first :: cs := by
    refine List.exists_cons_of_ne_nil fun hnil => ?_
    have hlength := frontEntity?_length hfront
    rw [hnil] at hlength
    exact absurd hlength (Nat.not_lt_zero _)
  rw [hcons] at hfront ⊢
  rw [unescape]
  split
  · next found hfound =>
    rw [hfront] at hfound
    cases hfound
    rfl
  · next hfound =>
    rw [hfront] at hfound
    cases hfound

theorem unescape_plain {c : Char} (hc : c ≠ '&') (cs : List Char) :
    unescape (c :: cs) = c :: unescape cs := by
  have hfront := frontEntity?_plain hc cs
  rw [unescape]
  split
  · next found hfound =>
    rw [hfront] at hfound
    cases hfound
  · rfl

theorem unescape_escapeChar (c : Char) (rest : List Char) :
    unescape (escapeChar c ++ rest) = c :: unescape rest := by
  unfold escapeChar
  cases h : entity? c with
  | some entity => exact unescape_entity (entity?_eq_some_iff.1 h) rest
  | none =>
    have hplain : c ≠ '&' := by
      rintro rfl
      cases h
    exact unescape_plain hplain rest

/-- What is read in an escaped text is the text. -/
theorem unescapeHtml_escapeHtml (text : String) : unescapeHtml (escapeHtml text) = text := by
  have hchars (cs : List Char) : unescape (cs.flatMap escapeChar) = cs := by
    induction cs with
    | nil => exact unescape_nil
    | cons c cs ih => rw [List.flatMap_cons, unescape_escapeChar, ih]
  unfold unescapeHtml escapeHtml
  rw [String.toList_ofList, hchars, String.ofList_toList]

/-! ## Escaping -/

/-- Escaping is lossless, safe and compositional. It goes through a text part by part; an escaped
text has none of the characters that have a meaning, and each ampersand in it is the start of one
entity and no other; with the entities replaced by their characters it is the text again, so
different texts are escaped differently. -/
theorem escaping_lossless (s t : String) :
    escapeHtml (s ++ t) = escapeHtml s ++ escapeHtml t ∧
    ((∀ c ∈ (escapeHtml s).toList, c ∉ markupChars) ∧
      ∀ rest, '&' :: rest <:+ (escapeHtml s).toList →
        ∃! entity, entity ∈ entities ∧ entity <+: '&' :: rest) ∧
    unescapeHtml (escapeHtml s) = s ∧
    (escapeHtml s = escapeHtml t ↔ s = t) := by
  have hharmless := harmless_escapeHtml s
  refine ⟨escapeHtml_append s t, ⟨hharmless.markup, fun rest hrest => ?_⟩,
    unescapeHtml_escapeHtml s, fun hsame => ?_, fun hsame => by rw [hsame]⟩
  · obtain ⟨entity, hentity, hprefix⟩ := hharmless.ampersand rest hrest
    refine ⟨entity, ⟨hentity, hprefix⟩, ?_⟩
    rintro other ⟨hother, hprefix'⟩
    exact entity_unique hother hentity hprefix' hprefix
  · rw [← unescapeHtml_escapeHtml s, hsame, unescapeHtml_escapeHtml]

/-- A text with an entity, pieces of entities and a lone ampersand. -/
theorem escaping_lossless_pieces :
    escapeHtml "&lt; &#x2F &" = "&amp;lt; &amp;#x2F &amp;" ∧
    (∃! entity, entity ∈ entities ∧ entity <+: "&amp;#x2F &amp;".toList) ∧
    unescapeHtml "&amp;lt; &amp;#x2F &amp;" = "&lt; &#x2F &" := by
  have hescaped : escapeHtml "&lt; &#x2F &" = "&amp;lt; &amp;#x2F &amp;" := by decide
  obtain ⟨-, ⟨-, hentity⟩, hread, -⟩ := escaping_lossless "&lt; &#x2F &" ""
  rw [hescaped] at hentity hread
  exact ⟨hescaped, hentity "amp;#x2F &amp;".toList ⟨"&amp;lt; ".toList, by decide⟩, hread⟩

end TagTemplate
