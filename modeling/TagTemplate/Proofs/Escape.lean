import TagTemplate.Engine.Options
import Mathlib.Data.List.Infix

/-!
# Text without markup

What escaping makes of a text, and why a number needs none. Main statements: `harmless_escapeHtml`,
an escaped text has no character with a meaning in HTML but ampersands that start entities;
`escapedText_eq`, every value is written as its escaped text, a number too.
-/

namespace TagTemplate

/-- The entities that stand for characters in escaped text. -/
def entities : List (List Char) :=
  ["&amp;".toList, "&lt;".toList, "&gt;".toList, "&quot;".toList, "&#39;".toList, "&#x2F;".toList,
    "&#x60;".toList, "&#x3D;".toList]

/-- The characters with a meaning in HTML, less the ampersand. -/
def markupChars : List Char := ['<', '>', '"', '\'', '/', '\x60', '=']

/-- No character of the text is markup, and every ampersand starts an entity. -/
structure Harmless (cs : List Char) : Prop where
  markup : ∀ c ∈ cs, c ∉ markupChars
  ampersand : ∀ rest, '&' :: rest <:+ cs → ∃ entity ∈ entities, entity <+: '&' :: rest

/-! ## Escaped texts -/

theorem entity?_eq_none_iff {c : Char} : entity? c = none ↔ c ∉ '&' :: markupChars := by
  constructor
  · intro h hmem
    have hall : ('&' :: markupChars).all (fun c => (entity? c).isSome) = true := by decide
    have hsome := List.all_eq_true.1 hall c hmem
    rw [h] at hsome
    cases hsome
  · intro h
    rw [entity?.eq_def]
    split
    case h_9 => rfl
    all_goals exact absurd (by decide) h

theorem entity?_mem {c : Char} {entity : List Char} (h : entity? c = some entity) :
    entity ∈ entities := by
  rw [entity?.eq_def] at h
  split at h
  case h_9 => cases h
  all_goals
    cases h
    decide

theorem Harmless.nil : Harmless [] where
  markup _ h := nomatch h
  ampersand rest h := absurd (List.suffix_nil.1 h) (List.cons_ne_nil _ rest)

theorem Harmless.append {a b : List Char} (ha : Harmless a) (hb : Harmless b) :
    Harmless (a ++ b) where
  markup c hc := (List.mem_append.1 hc).elim (ha.markup c) (hb.markup c)
  ampersand rest h := by
    -- an ampersand of the first text keeps its entity when more text follows
    obtain ⟨before, hsplit⟩ := h
    obtain ⟨middle, ha', hrest⟩ | ⟨middle, -, hb'⟩ := List.append_eq_append_iff.1 hsplit
    · cases middle with
      | nil => exact hb.ampersand rest ⟨[], hrest⟩
      | cons c middle =>
        obtain ⟨rfl, rfl⟩ := List.cons.inj hrest
        obtain ⟨entity, hentity, hprefix⟩ := ha.ampersand middle ⟨before, ha'.symm⟩
        exact ⟨entity, hentity, hprefix.trans (List.prefix_append ('&' :: middle) b)⟩
    · exact hb.ampersand rest ⟨middle, hb'.symm⟩

theorem harmless_entity {entity : List Char} (h : entity ∈ entities) : Harmless entity := by
  have hall : ∀ entity ∈ entities, entity.all (· ∉ markupChars) = true ∧
      entity.head? = some '&' ∧ '&' ∉ entity.tail := by decide
  obtain ⟨hmarkup, hhead, htail⟩ := hall entity h
  obtain ⟨name, rfl⟩ := List.head?_eq_some_iff.1 hhead
  refine ⟨fun c hc => of_decide_eq_true (List.all_eq_true.1 hmarkup c hc), fun rest hrest => ?_⟩
  obtain heq | hrest := List.suffix_cons_iff.1 hrest
  · exact ⟨_, h, heq ▸ List.prefix_rfl⟩
  · exact absurd (hrest.subset List.mem_cons_self) htail

theorem harmless_escapeChar (c : Char) : Harmless (escapeChar c) := by
  rw [escapeChar]
  cases h : entity? c with
  | some entity => exact harmless_entity (entity?_mem h)
  | none =>
    have hplain := entity?_eq_none_iff.1 h
    refine ⟨fun c' hc' => List.mem_singleton.1 hc' ▸ mt (List.mem_cons_of_mem _) hplain,
      fun rest hrest => absurd ?_ hplain⟩
    exact List.mem_singleton.1 (hrest.subset List.mem_cons_self) ▸ List.mem_cons_self

/-- An escaped text is harmless, whatever the text. -/
theorem harmless_escapeHtml (text : String) : Harmless (escapeHtml text).toList := by
  rw [escapeHtml, String.toList_ofList]
  induction text.toList with
  | nil => exact .nil
  | cons c cs ih => exact (harmless_escapeChar c).append ih

/-! ## Texts of numbers -/

/-- Escaping leaves every character as it is. -/
def Unmarked (cs : List Char) : Prop := ∀ c ∈ cs, entity? c = none

instance (cs : List Char) : Decidable (Unmarked cs) := List.decidableBAll _ cs

theorem Unmarked.append {a b : List Char} (ha : Unmarked a) (hb : Unmarked b) : Unmarked (a ++ b) :=
  List.forall_mem_append.2 ⟨ha, hb⟩

theorem Unmarked.cons {c : Char} {cs : List Char} (hc : entity? c = none) (h : Unmarked cs) :
    Unmarked (c :: cs) :=
  List.forall_mem_cons.2 ⟨hc, h⟩

theorem Unmarked.subset {a b : List Char} (h : Unmarked b) (hab : a ⊆ b) : Unmarked a :=
  fun c hc => h c (hab hc)

theorem unmarked_replicate (n : Nat) {c : Char} (hc : entity? c = none) :
    Unmarked (List.replicate n c) :=
  fun _ h => List.eq_of_mem_replicate h ▸ hc

theorem escapeHtml_unmarked {text : String} (h : Unmarked text.toList) :
    escapeHtml text = text := by
  have hflat : text.toList.flatMap escapeChar = text.toList.flatMap fun c => [c] :=
    List.flatMap_congr fun c hc => by rw [escapeChar, h c hc, Option.getD_none]
  rw [escapeHtml, hflat, List.flatMap_singleton', String.ofList_toList]

theorem unmarked_digits (n : Nat) : Unmarked (Nat.toDigits 10 n) := by
  intro c hc
  have hdigit : c.isDigit = true := Nat.isDigit_of_mem_toDigits (by decide) (by decide) hc
  refine entity?_eq_none_iff.2 fun hmem => ?_
  have hall : ('&' :: markupChars).all (fun c => !c.isDigit) = true := by decide
  have hnone := List.all_eq_true.1 hall c hmem
  rw [hdigit] at hnone
  cases hnone

theorem unmarked_int (n : Int) : Unmarked (toString n).toList := by
  rw [Int.toString_eq_repr]
  cases n with
  | ofNat n =>
    show Unmarked (n.repr).toList
    rw [Nat.toList_repr]
    exact unmarked_digits n
  | negSucc n =>
    show Unmarked ("-" ++ (n + 1).repr).toList
    rw [String.toList_append, Nat.toList_repr]
    exact .cons rfl (unmarked_digits (n + 1))

/-- The texts of a format stay as they are under escaping. -/
structure NumberFormat.Plain (f : NumberFormat) : Prop where
  nanText : Unmarked f.nanText.toList
  infinityText : Unmarked f.infinityText.toList
  exponentMark : Unmarked f.exponentMark.toList
  positiveExponentSign : Unmarked f.positiveExponentSign.toList

theorem numberFormat_plain : numberFormat.Plain where
  nanText := by decide
  infinityText := by decide
  exponentMark := by decide
  positiveExponentSign := by decide

theorem Decimal.unmarked_positional (d : Decimal) : Unmarked d.positional := by
  have hdigits : Unmarked d.digits := unmarked_digits d.coefficient
  rw [positional]
  cases d.exponent with
  | ofNat e => exact hdigits.append (unmarked_replicate e rfl)
  | negSucc e =>
    have hpadded := (unmarked_replicate (e + 1 + 1 - d.digits.length) (c := '0') rfl).append hdigits
    exact (hpadded.subset (List.take_subset ..)).append
      (.cons rfl (hpadded.subset (List.drop_subset ..)))

theorem Decimal.unmarked_scientific {f : NumberFormat} (hf : f.Plain) (d : Decimal) :
    Unmarked (d.scientific f) := by
  have hdigits : Unmarked d.digits := unmarked_digits d.coefficient
  have htail : Unmarked (d.digits.drop 1) := hdigits.subset (List.drop_subset ..)
  rw [scientific]
  refine (((hdigits.subset (List.take_subset ..)).append ?_).append hf.exponentMark).append ?_
  · split
    · exact fun c hc => nomatch hc
    · exact .cons rfl htail
  · split
    · exact hf.positiveExponentSign.append (unmarked_digits _)
    · exact .cons rfl (unmarked_digits _)

theorem Binary64.unmarked_displayIn {f : NumberFormat} (hf : f.Plain) (x : Binary64) :
    Unmarked (x.displayIn f).toList := by
  have hsign (negative : Bool) : Unmarked (if negative then "-" else "").toList := by
    cases negative <;> decide
  rw [displayIn]
  split
  · exact hf.nanText
  · rw [String.toList_append]
    exact (hsign _).append hf.infinityText
  · split
    · decide
    · rw [String.toList_append, String.toList_ofList, displayPositive]
      refine (hsign _).append ?_
      split
      · exact Decimal.unmarked_scientific hf _
      · dsimp only
        split
        · exact unmarked_digits _
        · exact Decimal.unmarked_positional _

/-- The text of a number has nothing to escape. -/
theorem Value.unmarked_display {v : Value} (h : v.isNumber = true) : Unmarked v.display.toList := by
  cases v with
  | int n => exact unmarked_int n.toInt
  | float x => exact Binary64.unmarked_displayIn numberFormat_plain x
  | _ => cases h

/-- Without an escaping of its own a rendering writes the escaped text of every value: that numbers
bypass the escaping cannot be seen. -/
theorem Options.escapedText_eq {o : Options} (h : o.escape = none) (v : Value) :
    o.escapedText v = escapeHtml (plainText v) := by
  rw [escapedText, plainText, h]
  split
  · rfl
  · dsimp only
    split
    · next hnumber => exact (escapeHtml_unmarked (Value.unmarked_display hnumber)).symm
    · rfl

end TagTemplate
