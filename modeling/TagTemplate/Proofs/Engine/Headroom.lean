import TagTemplate.Proofs.Engine.Ceiling
import TagTemplate.Proofs.Engine.Offer

/-!
# A ceiling that is not met goes unseen

A rendering without transformers and with getters that answer the same each time, under two
ceilings. Main statements: `upToCeiling_render`, up to the lower ceiling both do the same;
`ceiling_unseen`, every ceiling leads to a reply, and one that is not met leads to the reply of
every higher ceiling, and of none.
-/

namespace TagTemplate

/-- It ended at a ceiling. -/
def TooDeep {α : Type} (result : Except Fault α) : Prop := ∃ limit, result = .error (.tooDeep limit)

theorem parse_not_tooDeep (d : Delimiters) (template : String) :
    ¬TooDeep (parse d template) := by
  rintro ⟨limit, hparse⟩
  cases parse_fault_iff.1 hparse

section

variable {σ : Type}

/-! ## Parts of a rendering under two ceilings -/

/-- When the first part comes to an end, it met its ceiling, or the second part ends in the same
way, whatever the memory it starts with. -/
def UpToCeiling {α : Type} (limit : Nat) (p q : PlainM σ α) : Prop :=
  ∀ ⦃c result c'⦄ (other : Course σ), p.run c = some (result, c') →
    result = .error (.tooDeep limit) ∨
    ¬TooDeep result ∧ ∃ other', q.run other = some (result, other')

namespace UpToCeiling

variable {α β : Type} {limit : Nat}

theorem pure (a : α) : UpToCeiling limit (Pure.pure a : PlainM σ α) (Pure.pure a) := by
  intro c result c' other hrun
  cases hrun
  exact .inr ⟨nofun, other, rfl⟩

theorem exhausted (q : PlainM σ α) : UpToCeiling limit PlainM.exhausted q :=
  fun _ _ _ _ hrun => nomatch hrun

theorem lift {x : Except Fault α} (h : ¬TooDeep x) :
    UpToCeiling limit (PlainM.lift x : PlainM σ α) (PlainM.lift x) := by
  intro c result c' other hrun
  rw [PlainM.run_lift] at hrun
  cases hrun
  exact .inr ⟨h, other, PlainM.run_lift x other⟩

theorem bind {V : α → Prop} {p q : PlainM σ α} {f g : α → PlainM σ β}
    (h : UpToCeiling limit p q) (hp : PlainM.Gives V p)
    (hf : ∀ a, V a → UpToCeiling limit (f a) (g a)) :
    UpToCeiling limit (p >>= f) (q >>= g) := by
  intro c result c' other hrun
  rw [PlainM.run_bind] at hrun
  split at hrun
  · cases hrun
  · next fault _ hfirst =>
    cases hrun
    obtain heq | ⟨hdeep, other', hsecond⟩ := h other hfirst
    · cases heq
      exact .inl rfl
    · refine .inr ⟨?_, other', ?_⟩
      · rintro ⟨_, heq⟩
        cases heq
        exact hdeep ⟨_, rfl⟩
      · rw [PlainM.run_bind, hsecond]
  · next a _ hfirst =>
    obtain heq | ⟨-, other', hsecond⟩ := h other hfirst
    · cases heq
    · obtain hmet | ⟨hdeep, other'', hrest⟩ := hf a (hp hfirst) other' hrun
      · exact .inl hmet
      · refine .inr ⟨hdeep, other'', ?_⟩
        rw [PlainM.run_bind, hsecond]
        exact hrest

/-- With a first part that may give anything. -/
theorem bindAny {p q : PlainM σ α} {f g : α → PlainM σ β} (h : UpToCeiling limit p q)
    (hf : ∀ a, UpToCeiling limit (f a) (g a)) : UpToCeiling limit (p >>= f) (q >>= g) :=
  h.bind (V := fun _ => True) (fun _ _ _ _ => trivial) fun a _ => hf a

theorem append {p q p' q' : PlainM σ String} (h : UpToCeiling limit p q)
    (h' : UpToCeiling limit p' q') :
    UpToCeiling limit (do let first ← p; let rest ← p'; return first ++ rest)
      (do let first ← q; let rest ← q'; return first ++ rest) :=
  h.bindAny fun _ => h'.bindAny fun _ => .pure _

theorem each {write write' : α → PlainM σ String} (xs : List α)
    (h : ∀ x ∈ xs, UpToCeiling limit (write x) (write' x)) :
    UpToCeiling limit (PlainM.each write xs) (PlainM.each write' xs) := by
  induction xs with
  | nil => exact .pure ""
  | cons x xs ih =>
    exact (h x List.mem_cons_self).append (ih fun y hy => h y (List.mem_cons_of_mem x hy))

end UpToCeiling

/-! ## The same setup under another ceiling -/

def Setup.under (s : Setup σ) (ceiling : Option Nat) : Setup σ :=
  { s with options := { s.options with ceiling } }

/-- No transformer is at hand, getters are pure, and the ceiling is no lower than the limit. -/
structure Roomy (s : Setup σ) (view : Value) (limit : Nat) (ceiling : Option Nat) : Prop where
  transformers : view.OffersNoTransformer s.callables
  getters : view.OffersPureGetters s.callables
  room : ∀ higher ∈ ceiling, limit ≤ higher

namespace Roomy

variable {s : Setup σ} {view : Value} {limit : Nat} {ceiling : Option Nat}

/-- Getting deeper succeeds under the higher ceiling where it does under the limit. -/
theorem descend (h : Roomy s view limit ceiling) (depth : Nat) :
    UpToCeiling limit (PlainM.lift ((s.under (some limit)).options.descend depth) : PlainM σ Nat)
      (PlainM.lift ((s.under ceiling).options.descend depth)) := by
  by_cases hdeep : limit < depth + 1
  · have hlimit : (s.under (some limit)).options.descend depth = .error (.tooDeep limit) :=
      if_pos hdeep
    rw [hlimit]
    intro c result c' other hrun
    rw [PlainM.run_lift] at hrun
    cases hrun
    exact .inl rfl
  · have hlimit : (s.under (some limit)).options.descend depth = .ok (depth + 1) := if_neg hdeep
    have hceiling : (s.under ceiling).options.descend depth = .ok (depth + 1) := by
      cases ceiling with
      | none => rfl
      | some higher =>
        have hle : limit ≤ higher := h.room higher rfl
        exact if_neg (by omega)
    rw [hlimit, hceiling]
    exact .lift nofun

/-- What is found does not depend on the memory. -/
theorem seek (h : Roomy s view limit ceiling) {here : Standpoint}
    (hplace : here.Offering s.callables view) (name : String) :
    UpToCeiling limit ((s.under (some limit)).seek here name)
      ((s.under ceiling).seek here name) := by
  have hfound := hplace.find name
  intro c result c' other hrun
  rw [Setup.run_seek] at hrun ⊢
  split at hrun
  · next handle hgetter =>
    cases hrun
    rw [hgetter] at hfound
    have hsame := h.getters handle here.view hfound (hplace _ List.mem_cons_self) c.memory
      other.memory
    refine .inr ⟨nofun,
      { other with memory := (s.callables.get handle other.memory here.view).2 }, ?_⟩
    show _ = some (Except.ok (s.callables.get handle c.memory here.view).1, _)
    rw [hsame]
    rfl
  · cases hrun
    exact .inr ⟨nofun, other, rfl⟩

theorem ask (s : Setup σ) (limit : Nat) (ceiling : Option Nat) (name : String) :
    UpToCeiling limit ((s.under (some limit)).ask name) ((s.under ceiling).ask name) := by
  show UpToCeiling limit (s.ask name) (s.ask name)
  intro c result c' other hrun
  unfold Setup.ask at hrun ⊢
  split at hrun
  · cases hrun
    exact .inr ⟨nofun, other, rfl⟩
  · cases hrun
    exact .inr ⟨nofun, _, rfl⟩

variable {render render' : Standpoint → Nat → String → PlainM σ String} {body : BlockText}

mutual

theorem write (h : Roomy s view limit ceiling)
    (hrender : ∀ {here : Standpoint} (depth template), here.Offering s.callables view →
      UpToCeiling limit (render here depth template) (render' here depth template))
    (depth : Nat) {here : Standpoint} (hplace : here.Offering s.callables view) (n : Node) :
    UpToCeiling limit (n.writePlainly (s.under (some limit)) render body depth here)
      (n.writePlainly (s.under ceiling) render' body depth here) :=
  match n with
  | .text text _ _ => .pure text
  | .escaped key _ _ => by
    unfold Node.writePlainly
    exact (h.seek hplace key).bindAny fun value => .pure _
  | .unescaped key _ _ => by
    unfold Node.writePlainly
    exact (h.seek hplace key).bindAny fun value => .pure _
  | .block key start bodyStart children bodyStop => by
    have hchildren (depth : Nat) {here : Standpoint} (hplace : here.Offering s.callables view) :=
      h.writeNodes hrender depth hplace children
    have hframe (inner : Value) (hinner : view.Offers s.callables inner) :
        UpToCeiling limit
          (do
            let depth ← PlainM.lift ((s.under (some limit)).options.descend depth)
            writePlainly (s.under (some limit)) render body depth (here.push inner) children)
          (do
            let depth ← PlainM.lift ((s.under ceiling).options.descend depth)
            writePlainly (s.under ceiling) render' body depth (here.push inner) children) :=
      (h.descend depth).bindAny fun depth => hchildren depth (hplace.push hinner)
    unfold Node.writePlainly
    refine (h.seek hplace key).bind (hplace.seek key) fun value hvalue => ?_
    cases value.isTruthy with
    | false => exact .pure ""
    | true =>
      cases value with
      | array items =>
        refine (h.descend depth).bindAny fun depth => .each items fun item hitem => ?_
        exact hchildren depth (hplace.push (.item hvalue hitem))
      | object | string | int | float => exact hframe _ hvalue
      | transformer handle => exact absurd hvalue (h.transformers handle)
      | null | bool | getter => exact hchildren depth hplace
  | .inverted key start bodyStart children bodyStop => by
    unfold Node.writePlainly
    refine (h.seek hplace key).bindAny fun value => ?_
    generalize (!value.isTruthy || _) = falsy
    cases falsy with
    | true => exact h.writeNodes hrender depth hplace children
    | false => exact .pure ""
  | .inclusion key start stop margin => by
    unfold Node.writePlainly
    refine (ask s limit ceiling key).bindAny fun text => ?_
    cases text with
    | none => exact .pure ""
    | some text => exact (h.descend depth).bindAny fun depth => hrender depth _ hplace

theorem writeNodes (h : Roomy s view limit ceiling)
    (hrender : ∀ {here : Standpoint} (depth template), here.Offering s.callables view →
      UpToCeiling limit (render here depth template) (render' here depth template))
    (depth : Nat) {here : Standpoint} (hplace : here.Offering s.callables view) (ns : List Node) :
    UpToCeiling limit (writePlainly (s.under (some limit)) render body depth here ns)
      (writePlainly (s.under ceiling) render' body depth here ns) :=
  match ns with
  | [] => .pure ""
  | n :: ns => (h.write hrender depth hplace n).append (h.writeNodes hrender depth hplace ns)

end

end Roomy

variable {s : Setup σ} {view : Value} {limit : Nat} {ceiling : Option Nat}

/-- Up to the limit a template is rendered as it is under a higher ceiling. -/
theorem upToCeiling_render (h : Roomy s view limit ceiling) (budget : Nat) {here : Standpoint}
    (hplace : here.Offering s.callables view) (depth : Nat) (template : String) :
    UpToCeiling limit ((s.under (some limit)).renderPlainly budget here depth template)
      ((s.under ceiling).renderPlainly budget here depth template) := by
  induction budget generalizing here depth template with
  | zero => exact .exhausted _
  | succ budget ih =>
    unfold Setup.renderPlainly
    exact (UpToCeiling.lift (parse_not_tooDeep s.delimiters template)).bindAny fun nodes =>
      h.writeNodes (fun depth template hplace => ih hplace depth template) depth hplace nodes

/-! ## Renderings without transformers come to an end -/

/-- Without transformers every rendering under a ceiling comes to an end. -/
theorem settled_offering (hceiling : s.options.ceiling = some limit)
    (htransformers : view.OffersNoTransformer s.callables) {here : Standpoint}
    (hplace : here.Offering s.callables view) (depth : Nat) (template : String) :
    Settled (fun _ => True) fun budget => s.renderPlainly budget here depth template :=
  settled_render s hceiling (nested_wellFounded_of_offersNoTransformer s htransformers) hplace depth
    template

/-! ## Replies -/

/-- However a rendering starts, it ends with this result. -/
def Setup.Ends (s : Setup σ) (template : String) (view : Value) (result : Except Fault String) :
    Prop :=
  ∀ c, ∃ budget c', (s.renderPlainly budget ⟨view, []⟩ 0 template).run c = some (result, c')

/-- A call that renders the template is replied to in this way, in every session that the engine can
reach: some budget suffices, and every larger one leads to the same reply. -/
def Setup.Replies (s : Setup σ) (template : String) (view : Value) (reply : Except Fault Reply) :
    Prop :=
  ∀ session, s.engine.Reaches s.callables session → ∃ budget, ∀ larger, budget ≤ larger →
    ∃ session', s.engine.answer larger s.callables session
      (.render template view s.inclusions s.options) = some (reply, session')

/-- A reply under one budget in one session is the reply. -/
theorem Setup.Replies.eq_of_answer {template : String} {reply reply' : Except Fault Reply}
    (h : s.Replies template view reply) {session session' : Session σ} {budget : Nat}
    (hreaches : s.engine.Reaches s.callables session)
    (hanswer : s.engine.answer budget s.callables session
      (.render template view s.inclusions s.options) = some (reply', session')) :
    reply = reply' := by
  obtain ⟨large, hlarge⟩ := h session hreaches
  obtain ⟨session'', hanswer'⟩ := hlarge large le_rfl
  exact answer_unique s hreaches.sound hanswer' hanswer

namespace Setup.Ends

variable {template : String} {result result' : Except Fault String}

theorem replies (h : s.Ends template view result) : s.Replies template view (result.map .text) := by
  intro session hreaches
  obtain ⟨budget, c', hrun⟩ := h ⟨session.memory, session.shelf.askedNames⟩
  refine ⟨budget, fun larger hle => ?_⟩
  have hplain := answer_plainReply s hreaches.sound larger template view
  rw [(steady_render s ⟨view, []⟩ 0 template).stays hle hrun] at hplain
  obtain ⟨session', hanswer, -⟩ := hplain.of_plain
  exact ⟨session', hanswer⟩

theorem unique [Nonempty σ] (h : s.Ends template view result) (h' : s.Ends template view result') :
    result = result' := by
  obtain ⟨memory⟩ := ‹Nonempty σ›
  obtain ⟨budget, c₁, hrun⟩ := h ⟨memory, []⟩
  obtain ⟨budget', c₂, hrun'⟩ := h' ⟨memory, []⟩
  exact (Prod.mk.inj (run_renderPlainly_unique hrun hrun')).1

/-- A result other than the fault of the limit is the result under every higher ceiling. -/
theorem roomy (hroomy : Roomy s view limit ceiling)
    (h : (s.under (some limit)).Ends template view result)
    (hmet : result ≠ .error (.tooDeep limit)) : (s.under ceiling).Ends template view result := by
  intro c
  obtain ⟨budget, c', hrun⟩ := h c
  obtain heq | ⟨-, c'', hrun'⟩ := upToCeiling_render hroomy budget .root 0 template c hrun
  · exact absurd heq hmet
  · exact ⟨budget, c'', hrun'⟩

end Setup.Ends

/-- Under a ceiling there is one result for all starts: it is the fault of this ceiling, or none of
any ceiling. -/
theorem exists_ends [Nonempty σ] (htransformers : view.OffersNoTransformer s.callables)
    (hgetters : view.OffersPureGetters s.callables) (limit : Nat) (template : String) :
    ∃ result, (s.under (some limit)).Ends template view result ∧
      (result = .error (.tooDeep limit) ∨ ¬TooDeep result) := by
  have hroomy : Roomy s view limit (some limit) := by
    refine ⟨htransformers, hgetters, fun higher hhigher => ?_⟩
    cases hhigher
    exact le_rfl
  have hroot : Standpoint.Offering s.callables view ⟨view, []⟩ := .root
  have hsettled := settled_offering (s := s.under (some limit)) rfl htransformers hroot 0 template
  have hsame {budget : Nat} {c c' : Course σ} {result : Except Fault String} (other : Course σ)
      (hrun : ((s.under (some limit)).renderPlainly budget ⟨view, []⟩ 0 template).run c =
        some (result, c')) :=
    upToCeiling_render hroomy budget .root 0 template other hrun
  obtain ⟨memory⟩ := ‹Nonempty σ›
  obtain ⟨budget, ⟨result, c'⟩, hrun⟩ := hsettled.outcome ⟨memory, []⟩
  refine ⟨result, fun c => ?_, (hsame ⟨memory, []⟩ hrun).imp_right And.left⟩
  obtain rfl | ⟨-, hother⟩ := hsame c hrun
  · -- were the result another one from here, it would be from the first start too
    obtain ⟨budget', ⟨result', c''⟩, hrun'⟩ := hsettled.outcome c
    obtain rfl | ⟨hdeep, c₁, hfirst⟩ := hsame ⟨memory, []⟩ hrun'
    · exact ⟨budget', c'', hrun'⟩
    · exact absurd ⟨limit, (Prod.mk.inj (run_renderPlainly_unique hfirst hrun)).1⟩ hdeep
  · exact ⟨budget, hother⟩

/-- Without transformers and with pure getters, every ceiling leads to one reply. If that is not the
fault of the ceiling, then every higher ceiling leads to the same reply, and so does none; if it is,
then so it is for every lower ceiling. -/
theorem ceiling_unseen (htransformers : view.OffersNoTransformer s.callables)
    (hgetters : view.OffersPureGetters s.callables) (template : String) (limit : Nat) :
    ∃ reply, (s.under (some limit)).Replies template view reply ∧
      (reply ≠ .error (.tooDeep limit) →
        (s.under none).Replies template view reply ∧
        ∀ higher, limit ≤ higher → (s.under (some higher)).Replies template view reply) ∧
      (TooDeep reply → ∀ lower, lower ≤ limit →
        (s.under (some lower)).Replies template view (.error (.tooDeep lower))) := by
  by_cases hσ : Nonempty σ
  case neg =>
    -- without a memory to start with there is no session
    have hnone (s' : Setup σ) (reply : Except Fault Reply) : s'.Replies template view reply :=
      fun session => absurd ⟨session.memory⟩ hσ
    exact ⟨.ok .done, hnone _ _, fun _ => ⟨hnone _ _, fun _ _ => hnone _ _⟩, fun _ _ _ => hnone _ _⟩
  obtain ⟨result, hends, hresult⟩ := exists_ends htransformers hgetters limit template
  refine ⟨result.map .text, hends.replies, fun hreply => ?_, fun hdeep lower hlower => ?_⟩
  · have hmet : result ≠ .error (.tooDeep limit) := fun heq => hreply (heq ▸ rfl)
    have hroomy {ceiling : Option Nat} (hroom : ∀ higher ∈ ceiling, limit ≤ higher) :
        (s.under ceiling).Ends template view result :=
      hends.roomy ⟨htransformers, hgetters, hroom⟩ hmet
    refine ⟨(hroomy fun _ h => absurd h (Option.not_mem_none _)).replies, fun higher hle => ?_⟩
    exact (hroomy fun _ heq => Option.some.inj heq ▸ hle).replies
  · obtain ⟨result', hends', hresult'⟩ := exists_ends htransformers hgetters lower template
    obtain rfl | hshallow := hresult'
    · exact hends'.replies
    · -- a result that met no ceiling would be the result under the limit as well
      have hroomy : Roomy s view lower (some limit) :=
        ⟨htransformers, hgetters, fun _ heq => Option.some.inj heq ▸ hlower⟩
      have hsame := (hends'.roomy hroomy fun heq => hshallow ⟨lower, heq⟩).unique hends
      obtain ⟨k, hk⟩ := hdeep
      cases result with
      | ok text => cases hk
      | error fault =>
        cases hk
        exact absurd ⟨k, hsame⟩ hshallow

end

/-- A template that includes itself for the inner view, in which a getter tells the kind of its
receiver. -/
def kindSetup : Setup CallCounts where
  engine := {}
  inclusions := some fun name =>
    if name = "p" then some "\x7b\x7bv\x7d\x7d\x7b\x7b#n\x7d\x7d\x7b\x7b>p\x7d\x7d\x7b\x7b/n\x7d\x7d"
    else none
  callables := .ofRecipes #[.getter .typeName]

def kindView : Value :=
  .object [("n", .object [("n", .bool false), ("v", .getter 0)]), ("v", .int 1)]

def kindReply (limit : Nat) : Option (Except Fault Reply × Session CallCounts) :=
  kindSetup.engine.answer 4 kindSetup.callables (.fresh [] fun _ => .root .null)
    (.render "\x7b\x7b>p\x7d\x7d" kindView kindSetup.inclusions
      (kindSetup.under (some limit)).options)

/-- The inclusion, the block in it and the inclusion in that need a ceiling of three. -/
theorem ceiling_unseen_three :
    kindView.OffersNoTransformer kindSetup.callables ∧
    kindView.OffersPureGetters kindSetup.callables ∧
    (∀ higher, 3 ≤ higher → (kindSetup.under (some higher)).Replies "\x7b\x7b>p\x7d\x7d" kindView
      (.ok (.text "1object"))) ∧
    ∀ lower, lower ≤ 2 → (kindSetup.under (some lower)).Replies "\x7b\x7b>p\x7d\x7d" kindView
      (.error (.tooDeep lower)) := by
  have htransformers : kindView.OffersNoTransformer kindSetup.callables := by
    refine Value.TransformerFree.offersNoTransformer ?_ fun handle memory receiver => ?_
    · have hinner : (Value.object [("n", .bool false), ("v", .getter 0)]).TransformerFree :=
        .object (List.forall_mem_cons.2 ⟨.bool false, List.forall_mem_singleton.2 (.getter 0)⟩)
      exact .object (List.forall_mem_cons.2 ⟨hinner, List.forall_mem_singleton.2 (.int 1)⟩)
    · cases handle with
      | zero => exact .string _
      | succ handle => exact .null
  have hgetters : kindView.OffersPureGetters kindSetup.callables := by
    intro handle receiver _ _ memory memory'
    cases handle <;> rfl
  have hthree : (kindReply 3).map (fun answer => replyText? answer.1) = some (some "1object") := by
    decide +kernel
  have htwo : (kindReply 2).map (fun answer => answer.1.map fun _ => ()) =
      some (.error (.tooDeep 2)) := by decide +kernel
  refine ⟨htransformers, hgetters, fun higher hle => ?_, fun lower hle => ?_⟩
  · obtain ⟨⟨reply, session'⟩, hreply, htext⟩ := Option.map_eq_some_iff.1 hthree
    obtain rfl := replyText?_eq_some htext
    obtain ⟨reply, hreplies, hmore, -⟩ :=
      ceiling_unseen htransformers hgetters "\x7b\x7b>p\x7d\x7d" 3
    obtain rfl := hreplies.eq_of_answer (.fresh _ _) hreply
    exact (hmore nofun).2 higher hle
  · obtain ⟨⟨reply, session'⟩, hreply, hfault⟩ := Option.map_eq_some_iff.1 htwo
    obtain ⟨reply', hreplies, -, hlower⟩ :=
      ceiling_unseen htransformers hgetters "\x7b\x7b>p\x7d\x7d" 2
    obtain rfl := hreplies.eq_of_answer (.fresh _ _) hreply
    cases reply' with
    | ok text => cases hfault
    | error fault =>
      cases hfault
      exact hlower ⟨2, rfl⟩ lower hle

end TagTemplate
