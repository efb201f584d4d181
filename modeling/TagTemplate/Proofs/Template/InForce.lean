import Mathlib.Data.List.Basic
import TagTemplate.Proofs.Template.Pieces

/-!
# The delimiters in force

A tag with delimiters puts them in force for what follows, if it names exactly two. Main
statements: `inForce_ok_iff`, the delimiters that some tags leave in force exist if each tag with
delimiters names two; `inForce_eq_ok_iff`, they are those of the last such tag;
`Cursor.pieces_ending`, how the pieces of a text end.
-/

namespace TagTemplate

/-- The delimiters in force behind some tags. -/
def inForce (d : Delimiters) (ts : List Tag) : Except Fault Delimiters :=
  ts.foldlM (fun d t => t.delimitersAfter d) d

/-- If the tag is for delimiters, it names two. -/
def Tag.NamesTwo (t : Tag) : Prop := t.kind = .delimiters → (words t.key.toList).length = 2

instance (t : Tag) : Decidable t.NamesTwo := inferInstanceAs (Decidable (_ → _))

/-- The delimiters behind some tags are those that the last tag with delimiters names, or those from
before if there is none. -/
inductive LastNamed (d : Delimiters) : List Tag → Delimiters → Prop
  | initial {ts : List Tag} : (∀ t ∈ ts, t.kind ≠ .delimiters) → LastNamed d ts d
  | named {before after : List Tag} {t : Tag} {d' : Delimiters} :
      t.kind = .delimiters → words t.key.toList = [d'.opening.toList, d'.closing.toList] →
      (∀ u ∈ after, u.kind ≠ .delimiters) → LastNamed d (before ++ t :: after) d'

/-! ## Delimiters written in a tag -/

theorem of?_eq {opening closing : String} {d : Delimiters}
    (h : Delimiters.of? opening closing = .ok d) : d.opening = opening ∧ d.closing = closing := by
  rw [Delimiters.of?] at h
  split at h
  · cases h
    exact ⟨rfl, rfl⟩
  · cases h

/-- The delimiters written in a text are its two words. -/
theorem ofText?_eq_ok_iff {text : String} {d : Delimiters} :
    Delimiters.ofText? text = .ok d ↔
      words text.toList = [d.opening.toList, d.closing.toList] := by
  rw [Delimiters.ofText?]
  constructor
  · intro h
    split at h
    · next opening closing hwords =>
      obtain ⟨hopening, hclosing⟩ := of?_eq h
      rw [hwords, hopening, hclosing, String.toList_ofList, String.toList_ofList]
    · cases h
  · intro hwords
    rw [hwords]
    dsimp only
    rw [String.ofList_toList, String.ofList_toList, Delimiters.of?,
      dif_pos ⟨d.opening_ne, d.closing_ne⟩]

/-- A word holds no white space, and something. -/
theorem words_blankFree {cs word : List Char} (h : word ∈ words cs) :
    word ≠ [] ∧ ∀ c ∈ word, isBlank c = false := by
  induction cs generalizing word with
  | nil => cases h
  | cons c cs ih =>
    rw [words] at h
    split at h
    · exact ih h
    · next hc =>
      have hc : isBlank c = false := by simpa using hc
      split at h
      · rcases List.mem_cons.1 h with rfl | h
        · exact ⟨by simp, by simpa using hc⟩
        · exact ih h
      · split at h
        · next first more hwords =>
          rcases List.mem_cons.1 h with rfl | h
          · exact ⟨by simp, List.forall_mem_cons.2 ⟨hc, (ih (by rw [hwords]; simp)).2⟩⟩
          · exact ih (by rw [hwords]; exact List.mem_cons_of_mem _ h)
        · rw [List.mem_singleton.1 h]
          exact ⟨by simp, by simpa using hc⟩

/-- Delimiters written in a tag hold no white space. -/
theorem ofText?_blankFree {text : String} {d : Delimiters} (h : Delimiters.ofText? text = .ok d) :
    d.BlankFree := by
  have hwords := ofText?_eq_ok_iff.1 h
  exact ⟨(words_blankFree (hwords ▸ List.mem_cons_self)).2,
    (words_blankFree (hwords ▸ List.mem_cons_of_mem _ List.mem_cons_self)).2⟩

theorem delimitersAfter_blankFree {t : Tag} {d d' : Delimiters} (hd : d.BlankFree)
    (h : t.delimitersAfter d = .ok d') : d'.BlankFree := by
  rw [Tag.delimitersAfter] at h
  split at h
  · exact ofText?_blankFree h
  · cases h
    exact hd

/-- A tag with delimiters is refused if it does not name two. -/
theorem delimitersAfter_eq_error_iff {t : Tag} {d : Delimiters} {fault : Fault} :
    t.delimitersAfter d = .error fault ↔
      ¬ t.NamesTwo ∧ fault = .invalid (.delimiterPair t.key) := by
  rw [Tag.delimitersAfter, Tag.NamesTwo]
  split
  · next hkind =>
    rw [Delimiters.ofText?]
    split
    · next opening closing hwords =>
      have hopening := (words_blankFree (hwords ▸ List.mem_cons_self)).1
      have hclosing := (words_blankFree (hwords ▸ List.mem_cons_of_mem _ List.mem_cons_self)).1
      have hne {word : List Char} (h : word ≠ []) : String.ofList word ≠ "" := by
        intro hempty
        rw [← String.toList_inj, String.toList_ofList] at hempty
        exact h hempty
      rw [Delimiters.of?, dif_pos ⟨hne hopening, hne hclosing⟩]
      simp [hwords]
    · next hwords =>
      have hlength : (words t.key.toList).length ≠ 2 := by
        intro hlength
        obtain ⟨opening, closing, htwo⟩ := List.length_eq_two.1 hlength
        exact hwords opening closing htwo
      simp [hkind, hlength, eq_comm]
  · next hkind => simp [hkind]

theorem namesTwo_of_ok {t : Tag} {d d' : Delimiters} (h : t.delimitersAfter d = .ok d') :
    t.NamesTwo := by
  by_contra hnot
  rw [delimitersAfter_eq_error_iff.2 ⟨hnot, rfl⟩] at h
  cases h

/-! ## Tag by tag -/

theorem inForce_cons (d : Delimiters) (t : Tag) (ts : List Tag) :
    inForce d (t :: ts) = t.delimitersAfter d >>= fun d => inForce d ts := List.foldlM_cons

theorem inForce_blankFree {ts : List Tag} {d d' : Delimiters} (hd : d.BlankFree)
    (h : inForce d ts = .ok d') : d'.BlankFree := by
  induction ts generalizing d with
  | nil =>
    cases h
    exact hd
  | cons t ts ih =>
    rw [inForce_cons] at h
    obtain ⟨d₁, hafter, h⟩ := bind_eq_ok h
    exact ih (delimitersAfter_blankFree hd hafter) h

/-- Some tags leave delimiters in force if none of them is refused. -/
theorem inForce_ok_iff {d : Delimiters} {ts : List Tag} :
    (∃ d', inForce d ts = .ok d') ↔ ∀ t ∈ ts, t.NamesTwo := by
  induction ts generalizing d with
  | nil => exact ⟨fun _ => by simp, fun _ => ⟨d, rfl⟩⟩
  | cons t ts ih =>
    rw [inForce_cons, List.forall_mem_cons]
    cases hafter : t.delimitersAfter d with
    | error fault =>
      have hnot := (delimitersAfter_eq_error_iff.1 hafter).1
      exact ⟨fun ⟨_, h⟩ => (nomatch h), fun h => absurd h.1 hnot⟩
    | ok d' =>
      rw [ok_bind, ih]
      exact ⟨fun h => ⟨namesTwo_of_ok hafter, h⟩, fun h => h.2⟩

theorem inForce_append (d : Delimiters) (ts us : List Tag) :
    inForce d (ts ++ us) = inForce d ts >>= fun d => inForce d us := List.foldlM_append

theorem inForce_plain {d : Delimiters} {ts : List Tag} (h : ∀ t ∈ ts, t.kind ≠ .delimiters) :
    inForce d ts = .ok d := by
  induction ts with
  | nil => rfl
  | cons t ts ih =>
    obtain ⟨ht, hts⟩ := List.forall_mem_cons.1 h
    rw [inForce_cons, Tag.delimitersAfter, if_neg ht, ok_bind, ih hts]

theorem lastNamed_of_inForce {d d' : Delimiters} {ts : List Tag} (h : inForce d ts = .ok d') :
    LastNamed d ts d' := by
  induction ts generalizing d with
  | nil =>
    cases h
    exact .initial (by simp)
  | cons t ts ih =>
    rw [inForce_cons] at h
    obtain ⟨d₁, hafter, h⟩ := bind_eq_ok h
    cases ih h with
    | @named before after u _ hkind hwords hlast =>
      rw [← List.cons_append]
      exact .named hkind hwords hlast
    | initial hplain =>
      -- nothing behind the tag changes what it leaves in force
      rw [Tag.delimitersAfter] at hafter
      split at hafter
      · next hkind =>
        rw [← List.nil_append (t :: ts)]
        exact .named hkind (ofText?_eq_ok_iff.1 hafter) hplain
      · next hkind =>
        cases hafter
        exact .initial (List.forall_mem_cons.2 ⟨hkind, hplain⟩)

/-- In force behind some tags are the delimiters that the last one with delimiters names, if each
of them names two. -/
theorem inForce_eq_ok_iff {d d' : Delimiters} {ts : List Tag} :
    inForce d ts = .ok d' ↔ (∀ t ∈ ts, t.NamesTwo) ∧ LastNamed d ts d' := by
  constructor
  · intro h
    exact ⟨inForce_ok_iff.1 ⟨d', h⟩, lastNamed_of_inForce h⟩
  · rintro ⟨htwo, hlast⟩
    cases hlast with
    | initial hplain => exact inForce_plain hplain
    | @named before after t _ hkind hwords hplain =>
      obtain ⟨d₁, hbefore⟩ := inForce_ok_iff.2 fun u hu => htwo u (List.mem_append_left _ hu)
      rw [inForce_append, hbefore, ok_bind, inForce_cons, Tag.delimitersAfter, if_pos hkind,
        ofText?_eq_ok_iff.2 hwords, ok_bind, inForce_plain hplain]

/-! ## How the pieces of a text end -/

namespace Cursor

variable {d : Delimiters} {c : Cursor}

theorem readKey_stop (d : Delimiters) (sigil : List Char) (c : Cursor) :
    (c.readKey d sigil).2.stop = c.stop := by
  unfold readKey
  split <;> simp

theorem readTag_stop {next : Cursor} {t : Tag} (h : c.readTag d = .ok (t, next)) :
    next.stop = c.stop := by
  simp only [readTag] at h
  split at h
  · cases h
  · obtain ⟨-, rfl⟩ := Prod.mk.inj (Except.ok.inj h)
    simp [readKey_stop]

/-- A tag that cannot be read reaches the end of the text. -/
theorem readTag_error {pos : Nat} (h : c.readTag d = .error pos) :
    pos = c.stop := by
  simp only [readTag] at h
  generalize hc3 : (((c.scan d.openingPattern).2.scan sigilPattern).2.scan blanksHere).2 = c3 at h
  generalize ((c.scan d.openingPattern).2.scan sigilPattern).1 = sigil at h
  -- whatever the sigil, the key ends with a search for the closing delimiter
  have hsearch : ∃ c' : Cursor, (c3.readKey d sigil).2 = (c'.scanUntil d.closingPattern).2 := by
    unfold readKey
    split <;> exact ⟨_, rfl⟩
  obtain ⟨c', hc'⟩ := hsearch
  split at h
  · next hclose =>
    cases h
    -- nothing is scanned, so the search for a closing delimiter got to the end
    have hrest : (c3.readKey d sigil).2.rest = [] := by
      rw [hc'] at hclose ⊢
      refine (scanUntil_stops rfl).resolve_right fun hmatch => ?_
      obtain ⟨blanks, -, hscan⟩ := scan_padded (w := d.closing.toList) rfl rfl rfl hmatch
      rw [hscan, List.isEmpty_iff, List.append_eq_nil_iff] at hclose
      exact d.closing_toList_ne hclose.2
    have hbehind := scan_append d.closingPattern (c3.readKey d sigil).2
    rw [hrest] at hbehind
    have hstop : ((c3.readKey d sigil).2.scan d.closingPattern).2.stop = c.stop := by
      rw [scan_stop, readKey_stop, ← hc3, scan_stop, scan_stop, scan_stop]
    rw [stop, (List.append_eq_nil_iff.1 hbehind).2] at hstop
    exact hstop
  · cases h

end Cursor

/-- What the end of the pieces of a text says, if they start under the delimiters `d` and the text
ends at `stop`. -/
def Pieces.EndsWell (d : Delimiters) (stop : Nat) (ps : Pieces) : Prop :=
  match ps.ending with
  | .finished pos => pos = stop ∧ ∃ d', inForce d (tagsOf ps.list) = .ok d'
  | .unclosed closing pos =>
    pos = stop ∧ ∃ d', inForce d (tagsOf ps.list) = .ok d' ∧ closing = d'.shownClosing
  | .refused fault => ∃ front t, ps.list = front ++ [.tag t] ∧
      (∀ t' ∈ tagsOf front, t'.NamesTwo) ∧ ¬ t.NamesTwo ∧ fault = .invalid (.delimiterPair t.key)

theorem Pieces.EndsWell.char {d : Delimiters} {stop : Nat} {ps : Pieces} {c : Char} {start : Nat}
    (h : ps.EndsWell d stop) : (ps.behind [.char c start]).EndsWell d stop := by
  obtain ⟨list, ending⟩ := ps
  cases ending with
  | finished pos => exact h
  | unclosed closing pos => exact h
  | refused fault =>
    obtain ⟨front, t, rfl, hfront, ht, hfault⟩ := h
    exact ⟨.char c start :: front, t, rfl, hfront, ht, hfault⟩

theorem Pieces.EndsWell.tag {d d' : Delimiters} {stop : Nat} {ps : Pieces} {t : Tag}
    (hafter : t.delimitersAfter d = .ok d') (h : ps.EndsWell d' stop) :
    (ps.behind [.tag t]).EndsWell d stop := by
  -- what follows the tag starts under its delimiters
  have hcons (list : List Piece) :
      inForce d (tagsOf (.tag t :: list)) = inForce d' (tagsOf list) := by
    rw [tagsOf_tag, inForce_cons, hafter, ok_bind]
  obtain ⟨list, ending⟩ := ps
  cases ending with
  | finished pos =>
    obtain ⟨hpos, last, hlast⟩ := h
    exact ⟨hpos, last, (hcons list).trans hlast⟩
  | unclosed closing pos =>
    obtain ⟨hpos, last, hlast, hclosing⟩ := h
    exact ⟨hpos, last, (hcons list).trans hlast, hclosing⟩
  | refused fault =>
    obtain ⟨front, t', rfl, hfront, ht', hfault⟩ := h
    exact ⟨.tag t :: front, t', rfl, List.forall_mem_cons.2 ⟨namesTwo_of_ok hafter, hfront⟩, ht',
      hfault⟩

/-- The pieces of a text end at its end, or at the first tag with delimiters that does not name
two. -/
theorem Cursor.pieces_ending (d : Delimiters) (c : Cursor) : (c.pieces d).EndsWell d c.stop := by
  induction d, c using Cursor.pieces_induction with
  | atEnd d c h =>
    rw [pieces_atEnd h, stop, h]
    exact ⟨rfl, d, rfl⟩
  | char d pos x xs hnone ih =>
    have hstop : stop ⟨pos + x.utf8Size, xs⟩ = stop ⟨pos, x :: xs⟩ := by
      simp [stop, Nat.add_assoc]
    rw [hstop] at ih
    rw [pieces_char hnone]
    exact .char ih
  | unclosed d c pos hopen htag =>
    rw [pieces_unclosed hopen htag]
    exact ⟨readTag_error htag, d, rfl, rfl⟩
  | refused d c t next fault hopen htag hafter =>
    rw [pieces_tag hopen htag, hafter]
    obtain ⟨hnot, hfault⟩ := delimitersAfter_eq_error_iff.1 hafter
    exact ⟨[], t, rfl, by simp [tagsOf], hnot, hfault⟩
  | tag d d' c t next hopen htag hafter ih =>
    rw [readTag_stop htag] at ih
    rw [pieces_tag hopen htag, hafter]
    exact .tag hafter ih

end TagTemplate
