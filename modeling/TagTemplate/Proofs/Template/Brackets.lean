import Mathlib.Data.List.Induction
import TagTemplate.Template.Parse

/-!
# Tags as a bracket word

Opening and closing tags are brackets, matched by their keys; all other tags stand between them.
Main statements: `keysThrough_eq_ok_iff`, the stack of keys that drafting keeps is what is open in
the bracket word so far, and `keysThrough_eq_error_iff`, it breaks down at the first closing tag
that does not fit.
-/

namespace TagTemplate

namespace Tag

def Opens (t : Tag) : Prop := t.kind = .block ∨ t.kind = .inverted

def Closes (t : Tag) : Prop := t.kind = .blockEnd

/-- What a tag says, wherever it stands. -/
def label (t : Tag) : TagKind × String := (t.kind, t.key)

instance (t : Tag) : Decidable t.Opens := inferInstanceAs (Decidable (_ ∨ _))

instance (t : Tag) : Decidable t.Closes := inferInstanceAs (Decidable (_ = _))

end Tag

/-- Every opening tag is matched by a closing tag with its key, and the other way round. -/
inductive Balanced : List Tag → Prop
  | nil : Balanced []
  | other {t : Tag} {ts : List Tag} :
      ¬ t.Opens → ¬ t.Closes → Balanced ts → Balanced (t :: ts)
  | block {o e : Tag} {inside after : List Tag} :
      o.Opens → e.Closes → o.key = e.key → Balanced inside → Balanced after →
      Balanced (o :: (inside ++ e :: after))

/-- The stack of keys after some tags, if `keys` is the one before them. -/
def keysThrough (source : String) (keys : List String) (ts : List Tag) :
    Except Fault (List String) :=
  ts.foldlM (fun keys t => t.keysAfter source keys) keys

/-- The opening tags without a partner among some tags, innermost first. -/
inductive OpenAfter : List Tag → List Tag → Prop
  | balanced {ts : List Tag} : Balanced ts → OpenAfter ts []
  | enter {before inside openers : List Tag} {o : Tag} :
      OpenAfter before openers → o.Opens → Balanced inside →
      OpenAfter (before ++ o :: inside) (o :: openers)

/-! ## Words put together -/

theorem Balanced.append {a b : List Tag} (ha : Balanced a) (hb : Balanced b) :
    Balanced (a ++ b) := by
  induction ha with
  | nil => exact hb
  | other ho hc _ ih => exact .other ho hc ih
  | block ho he hkey hinside _ _ ihafter =>
    rw [List.cons_append, List.append_assoc, List.cons_append]
    exact .block ho he hkey hinside ihafter

/-- Brackets stay matched, wherever they stand, if their keys are all changed in the same way. -/
theorem Balanced.of_labels {f : String → String} {ts us : List Tag} (h : Balanced ts)
    (hus : us.map Tag.label = ts.map fun t => (t.kind, f t.key)) : Balanced us := by
  have hopens {t u : Tag} (h : u.label = (t.kind, f t.key)) : u.Opens ↔ t.Opens := by
    rw [Tag.Opens, Tag.Opens, show u.kind = t.kind from congrArg Prod.fst h]
  have hcloses {t u : Tag} (h : u.label = (t.kind, f t.key)) : u.Closes ↔ t.Closes := by
    rw [Tag.Closes, Tag.Closes, show u.kind = t.kind from congrArg Prod.fst h]
  induction h generalizing us with
  | nil => exact List.map_eq_nil_iff.1 hus ▸ .nil
  | other ho hc _ ih =>
    obtain ⟨u, us, rfl, hu, hus⟩ := List.map_eq_cons_iff.1 hus
    exact .other (mt (hopens hu).1 ho) (mt (hcloses hu).1 hc) (ih hus)
  | block ho he hkey _ _ ihinside ihafter =>
    rw [List.map_cons, List.map_append, List.map_cons] at hus
    obtain ⟨o, us, rfl, hopening, hus⟩ := List.map_eq_cons_iff.1 hus
    obtain ⟨inside, us, rfl, hinside, hus⟩ := List.map_eq_append_iff.1 hus
    obtain ⟨e, after, rfl, hclosing, hafter⟩ := List.map_eq_cons_iff.1 hus
    have hkeys : o.key = e.key := by
      rw [show o.key = _ from congrArg Prod.snd hopening,
        show e.key = _ from congrArg Prod.snd hclosing, hkey]
    exact .block ((hopens hopening).2 ho) ((hcloses hclosing).2 he) hkeys (ihinside hinside)
      (ihafter hafter)

theorem OpenAfter.append {a b openers : List Tag} (ha : OpenAfter a openers) (hb : Balanced b) :
    OpenAfter (a ++ b) openers := by
  cases ha with
  | balanced ha => exact .balanced (ha.append hb)
  | enter hbefore ho hinside =>
    rw [List.append_assoc, List.cons_append]
    exact .enter hbefore ho (hinside.append hb)

theorem openAfter_nil {ts : List Tag} (h : OpenAfter ts []) : Balanced ts := by
  cases h with
  | balanced h => exact h

/-- A closing tag is the partner of the innermost opening tag. -/
theorem OpenAfter.close {ts openers : List Tag} {o e : Tag} (h : OpenAfter ts (o :: openers))
    (he : e.Closes) (hkey : o.key = e.key) : OpenAfter (ts ++ [e]) openers := by
  cases h with
  | enter hbefore ho hinside =>
    rw [List.append_assoc, List.cons_append]
    exact hbefore.append (.block ho he hkey hinside .nil)

/-! ## The stack of keys -/

section

variable {source : String} {t : Tag} {ts : List Tag} {keys keys' : List String} {fault : Fault}

theorem Tag.keysAfter_opens (h : t.Opens) : t.keysAfter source keys = .ok (t.key :: keys) := by
  rcases h with h | h <;> simp only [Tag.keysAfter, h]

theorem Tag.keysAfter_other (ho : ¬ t.Opens) (hc : ¬ t.Closes) :
    t.keysAfter source keys = .ok keys := by
  unfold Tag.Opens at ho
  unfold Tag.Closes at hc
  cases hkind : t.kind <;> simp_all [Tag.keysAfter]

theorem Tag.keysAfter_closes (h : t.Closes) (key : String) (hkey : key = t.key) :
    t.keysAfter source (key :: keys) = .ok keys := by
  unfold Tag.Closes at h
  simp only [Tag.keysAfter, h, hkey, if_true]

/-- A closing tag that fits finds its key on the stack. -/
theorem Tag.keysAfter_closes_eq_ok (h : t.Closes) (hok : t.keysAfter source keys = .ok keys') :
    keys = t.key :: keys' := by
  cases keys with
  | nil => simp [Tag.keysAfter, show t.kind = .blockEnd from h] at hok
  | cons key outer =>
    by_cases hkey : key = t.key
    · rw [Tag.keysAfter_closes h key hkey] at hok
      cases hok
      rw [hkey]
    · simp [Tag.keysAfter, show t.kind = .blockEnd from h, hkey] at hok

/-- What a closing tag does that has no partner. -/
theorem Tag.keysAfter_eq_error_iff : t.keysAfter source keys = .error fault ↔ t.Closes ∧
    ((keys = [] ∧ fault = .malformed ⟨.unopenedBlock t.key, t.start, source⟩) ∨
      ∃ key outer, keys = key :: outer ∧ key ≠ t.key ∧
        fault = .malformed ⟨.crossedBlock key t.key, t.start, source⟩) := by
  by_cases hc : t.Closes
  · unfold Tag.Closes at hc
    cases keys with
    | nil => simp [Tag.keysAfter, Tag.Closes, hc, eq_comm]
    | cons key outer =>
      by_cases hkey : key = t.key
      · simp [Tag.keysAfter, hc, hkey]
      · simp [Tag.keysAfter, Tag.Closes, hc, hkey, eq_comm]
  · simp only [hc, false_and, iff_false]
    by_cases ho : t.Opens
    · simp [keysAfter_opens ho]
    · simp [keysAfter_other ho hc]

theorem keysThrough_cons :
    keysThrough source keys (t :: ts) =
      t.keysAfter source keys >>= fun keys => keysThrough source keys ts := List.foldlM_cons

theorem keysThrough_append {a b : List Tag} :
    keysThrough source keys (a ++ b) =
      keysThrough source keys a >>= fun keys => keysThrough source keys b := List.foldlM_append

/-- A tag finds the stack as the tags before it have left it. -/
theorem keysThrough_split {a b : List Tag} (h : keysThrough source keys (a ++ t :: b) = .ok keys') :
    ∃ before after, keysThrough source keys a = .ok before ∧
      t.keysAfter source before = .ok after ∧ keysThrough source after b = .ok keys' := by
  rw [keysThrough_append] at h
  obtain ⟨before, ha, h⟩ := bind_eq_ok h
  rw [keysThrough_cons] at h
  obtain ⟨after, ht, hb⟩ := bind_eq_ok h
  exact ⟨before, after, ha, ht, hb⟩

/-- A balanced word leaves the stack as it was. -/
theorem Balanced.keysThrough (h : Balanced ts) (source : String) (keys : List String) :
    keysThrough source keys ts = .ok keys := by
  induction h generalizing keys with
  | nil => rfl
  | other ho hc _ ih => rw [keysThrough_cons, Tag.keysAfter_other ho hc, ok_bind, ih]
  | block ho he hkey _ _ ihinside ihafter =>
    rw [keysThrough_cons, Tag.keysAfter_opens ho, ok_bind, keysThrough_append, ihinside, ok_bind,
      keysThrough_cons, Tag.keysAfter_closes he _ hkey, ok_bind, ihafter]

/-- One more tag changes what is open as it changes the stack. -/
theorem OpenAfter.snoc {openers : List Tag} (h : OpenAfter ts openers)
    (hlast : t.keysAfter source (openers.map Tag.key) = .ok keys) :
    ∃ openers', OpenAfter (ts ++ [t]) openers' ∧ openers'.map Tag.key = keys := by
  by_cases ho : t.Opens
  · rw [Tag.keysAfter_opens ho] at hlast
    cases hlast
    exact ⟨t :: openers, .enter h ho .nil, rfl⟩
  by_cases hc : t.Closes
  · obtain ⟨o, outer, rfl, hkey, rfl⟩ :=
      List.map_eq_cons_iff.1 (Tag.keysAfter_closes_eq_ok hc hlast)
    exact ⟨outer, h.close hc hkey, rfl⟩
  · rw [Tag.keysAfter_other ho hc] at hlast
    cases hlast
    exact ⟨openers, h.append (.other ho hc .nil), rfl⟩

/-- What is open is on the stack. -/
theorem OpenAfter.keysThrough {openers : List Tag} (h : OpenAfter ts openers) (source : String) :
    keysThrough source [] ts = .ok (openers.map Tag.key) := by
  induction h with
  | balanced h => exact h.keysThrough source []
  | enter _ ho hinside ih =>
    rw [keysThrough_append, ih, ok_bind, keysThrough_cons, Tag.keysAfter_opens ho, ok_bind,
      hinside.keysThrough]
    rfl

/-- The stack of keys is what is open in the word so far. -/
theorem keysThrough_eq_ok_iff : keysThrough source [] ts = .ok keys ↔
    ∃ openers, OpenAfter ts openers ∧ openers.map Tag.key = keys := by
  constructor
  · intro h
    -- by the last tag, since what is open grows and shrinks at the end of the word
    induction ts using List.reverseRecOn generalizing keys with
    | nil =>
      cases h
      exact ⟨[], .balanced .nil, rfl⟩
    | append_singleton ts t ih =>
      obtain ⟨before, after, hts, hlast, hnil⟩ := keysThrough_split h
      cases hnil
      obtain ⟨openers, hopen, rfl⟩ := ih hts
      exact hopen.snoc hlast
  · rintro ⟨openers, hopen, rfl⟩
    exact hopen.keysThrough source

/-- The stack of keys breaks down at the first closing tag that does not fit. -/
theorem keysThrough_eq_error_iff : keysThrough source [] ts = .error fault ↔
    ∃ before e after openers, ts = before ++ e :: after ∧ OpenAfter before openers ∧
      e.keysAfter source (openers.map Tag.key) = .error fault := by
  constructor
  · intro h
    induction ts using List.reverseRecOn with
    | nil => cases h
    | append_singleton ts t ih =>
      rw [keysThrough_append] at h
      cases hts : keysThrough source [] ts with
      | error f =>
        -- the last tag comes too late to be the first one that does not fit
        rw [hts] at h
        cases h
        obtain ⟨before, e, after, openers, rfl, hopen, he⟩ := ih hts
        exact ⟨before, e, after ++ [t], openers, by simp, hopen, he⟩
      | ok keys =>
        rw [hts, ok_bind, keysThrough_cons] at h
        obtain ⟨openers, hopen, rfl⟩ := keysThrough_eq_ok_iff.1 hts
        refine ⟨ts, t, [], openers, rfl, hopen, ?_⟩
        cases hlast : t.keysAfter source (openers.map Tag.key) with
        | error f => rw [hlast] at h; cases h; rfl
        | ok after => rw [hlast] at h; cases h
  · rintro ⟨before, e, after, openers, rfl, hopen, he⟩
    rw [keysThrough_append, hopen.keysThrough, ok_bind, keysThrough_cons, he, error_bind]

end

end TagTemplate
