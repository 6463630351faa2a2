import Precedence.Proofs.Parsing.Tokens

/-!
# What parses make

An invariant of values. If the denotations of a grammar make values of a kind of tokens of a kind
and of operands of the same kind as their results, then a parse makes values of that kind.

* `Action.Yields`: what an action gives, as far as what it gets is of the right kinds.
* `Action.Yields.run`: what it gives in a parse.
* `of_parse`: so the value of a text is of the kind, too.
-/

namespace Precedence

open Precedence.Source

variable {V α β : Type}

namespace Action

/-- If all tokens that the action gets are of the kind `T` and all operands are of the kind `P`, so
are the operands that it has continued, and its result is of the kind `Q`. -/
def Yields (T : Token → Prop) (P : V → Prop) (Q : α → Prop) : Action V α → Prop
  | done (.ok a) => Q a
  | done (.error _) => True
  | peek k => ∀ r, (∀ t, r = .ok t → T t) → (k r).Yields T P Q
  | take k => ∀ r, (∀ t, r = .ok t → T t) → (k r).Yields T P Q
  | expression _ k => ∀ r, (∀ v, r = .ok v → P v) → (k r).Yields T P Q
  | resume left _ k => P left ∧ ∀ r, (∀ v, r = .ok v → P v) → (k r).Yields T P Q
  | progress k => ∀ p, (k p).Yields T P Q

variable {T : Token → Prop} {P : V → Prop} {Q : α → Prop} {R : β → Prop}

theorem yields_done {r : Except ParseError α} (h : ∀ a, r = .ok a → Q a) :
    (done r : Action V α).Yields T P Q := by
  cases r with
  | error e => trivial
  | ok a => exact h a rfl

theorem yields_pure {a : α} (h : Q a) : (pure a : Action V α).Yields T P Q :=
  h

theorem yields_fail (e : ParseError) : (fail e : Action V α).Yields T P Q :=
  trivial

theorem yields_peekToken : (peekToken : Action V Token).Yields T P T :=
  fun _ => yields_done

theorem yields_takeToken : (takeToken : Action V Token).Yields T P T :=
  fun _ => yields_done

theorem yields_operand (least : Nat) : (operand least : Action V V).Yields T P P :=
  fun _ => yields_done

theorem yields_continued {left : V} (h : P left) (least : Nat) :
    (continued left least).Yields T P P :=
  ⟨h, fun _ => yields_done⟩

/-- One action and then another one that makes something of its result. -/
theorem Yields.bind {m : Action V α} {f : α → Action V β} (h : m.Yields T P Q)
    (hf : ∀ a, Q a → (f a).Yields T P R) : (m >>= f).Yields T P R := by
  show (m.bind f).Yields T P R
  induction m with
  | done r =>
    cases r with
    | error e => trivial
    | ok a => exact hf a h
  | peek k ih => exact fun r hr => ih r (h r hr)
  | take k ih => exact fun r hr => ih r (h r hr)
  | expression least k ih => exact fun r hr => ih r (h r hr)
  | resume left least k ih => exact ⟨h.1, fun r hr => ih r (h.2 r hr)⟩
  | progress k ih => exact fun p => ih p (h p)

end Action

namespace Session

variable {T : Token → Prop} {c : Context} {s s' : Session} {t : Token}

/-- All tokens that the state has ahead are of a kind. -/
structure Offers (T : Token → Prop) (s : Session) : Prop where
  upcoming : ∀ t ∈ s.upcoming, T t
  ending : ∀ t, s.ending.symbol? = some t.symbol → T t

theorem Offers.later (h : s.Offers T) (hl : Later s s') : s'.Offers T where
  upcoming t ht := h.upcoming t (hl.upcoming.subset ht)
  ending t ht := h.ending t (hl.ending ▸ ht)

/-- What is looked at is of the kind. -/
theorem Offers.of_peek (h : s.Offers T) (hp : s.peek c = (.ok t, s')) : T t := by
  rw [peek] at hp
  cases hu : s.upcoming with
  | cons u us =>
    rw [hu] at hp
    cases hp
    exact h.upcoming t (hu ▸ List.mem_cons_self)
  | nil =>
    rw [hu] at hp
    cases he : s.ending with
    | endless u =>
      rw [he] at hp
      cases hp
      exact h.ending t (by rw [he]; rfl)
    | unrecognized span =>
      rw [he] at hp
      cases hp

theorem Offers.of_take (h : s.Offers T) (ht : s.take c = (.ok t, s')) : T t := by
  obtain ⟨s₁, hp, -⟩ := take_eq_ok_iff.mp ht
  exact h.of_peek hp

end Session

namespace Action

open Session (Later)

variable {T : Token → Prop} {P : V → Prop} {Q : α → Prop} {c : Context}
variable {e : Nat → Session → Outcome V} {r : V → Nat → Session → Outcome V}

/-- **What an action gives in a parse,** if the parse answers with operands of the kind. -/
theorem Yields.run {m : Action V α} (h : m.Yields T P Q) {s s' : Session} {a : α}
    (hs : s.Offers T)
    (helater : ∀ least s o, e least s = some o → Later s o.2)
    (hrlater : ∀ left least s o, r left least s = some o → Later s o.2)
    (he : ∀ least s v s', s.Offers T → e least s = some (.ok v, s') → P v)
    (hr : ∀ left least s v s', P left → s.Offers T → r left least s = some (.ok v, s') → P v)
    (hrun : m.run c e r s = some (.ok a, s')) : Q a := by
  induction m generalizing s with
  | done result =>
    cases hrun
    exact h
  | peek k ih =>
    refine ih _ (h _ fun t ht => ?_) (hs.later (Session.later_peek (c := c) s)) hrun
    exact hs.of_peek (c := c) (Prod.ext ht rfl)
  | take k ih =>
    refine ih _ (h _ fun t ht => ?_) (hs.later (Session.later_take (c := c) s)) hrun
    exact hs.of_take (c := c) (Prod.ext ht rfl)
  | expression least k ih =>
    simp only [Action.run] at hrun
    cases hx : e least s with
    | none =>
      rw [hx] at hrun
      cases hrun
    | some o =>
      rw [hx] at hrun
      refine ih _ (h _ fun v hv => ?_) (hs.later (helater _ _ _ hx)) hrun
      exact he least s v o.2 hs (hx.trans (congrArg some (Prod.ext hv rfl)))
  | resume left least k ih =>
    simp only [Action.run] at hrun
    cases hx : r left least s with
    | none =>
      rw [hx] at hrun
      cases hrun
    | some o =>
      rw [hx] at hrun
      refine ih _ (h.2 _ fun v hv => ?_) (hs.later (hrlater _ _ _ _ hx)) hrun
      exact hr left least s v o.2 h.1 hs (hx.trans (congrArg some (Prod.ext hv rfl)))
  | progress k ih => exact ih _ (h _) hs hrun

end Action

namespace Grammar

open Session (Later)

variable {g : Grammar V} {c : Context} {T : Token → Prop} {P : V → Prop} {n least : Nat}
variable {s s' : Session} {left v : V}

/-- The denotations of the grammar make values of the kind `P` of tokens of the kind `T` and of
values of the kind `P`. -/
structure Makes (g : Grammar V) (c : Context) (T : Token → Prop) (P : V → Prop) : Prop where
  nud : ∀ t, T t → (g.nudAction c t).Yields T P P
  led : ∀ t left, T t → P left → (g.ledAction c t left).Yields T P P

/-- What is parsed within `n` steps is of the kind. -/
structure Produces (g : Grammar V) (c : Context) (T : Token → Prop) (P : V → Prop) (n : Nat) :
    Prop where
  expression : ∀ least s v s', s.Offers T → g.expression c n least s = some (.ok v, s') → P v
  resume : ∀ left least s v s', P left → s.Offers T →
    g.resume c n left least s = some (.ok v, s') → P v

theorem Produces.act {Q : α → Prop} (h : g.Produces c T P n) {m : Action V α} {a : α}
    (hm : m.Yields T P Q) (hs : s.Offers T) (ha : g.act c n m s = some (.ok a, s')) : Q a :=
  hm.run hs (fun _ _ _ => expression_later) (fun _ _ _ _ => resume_later) h.expression h.resume ha

theorem Produces.expression_succ (h : g.Produces c T P n) (hg : g.Makes c T P)
    (hs : s.Offers T) (hx : g.expression c (n + 1) least s = some (.ok v, s')) : P v := by
  obtain ⟨-, s₁, hbegin, rfl⟩ := expression_eq_ok_iff.mp hx
  obtain ⟨t, s₂, left, s₃, ht, hnud, hresume⟩ := begin_eq_ok_iff.mp hbegin
  have hs' : s.enter.Offers T := hs.later (Session.later_enter s)
  have hlater := Session.later_take (c := c) s.enter
  rw [ht] at hlater
  have hs₂ : s₂.countNud.Offers T := (hs'.later hlater).later (Session.later_countNud s₂)
  have hleft : P left := h.act (hg.nud t (hs'.of_take ht)) hs₂ hnud
  exact h.resume left least s₃ v s₁ hleft (hs₂.later (act_later hnud)) hresume

theorem Produces.resume_succ (h : g.Produces c T P n) (hg : g.Makes c T P) (hleft : P left)
    (hs : s.Offers T) (hx : g.resume c (n + 1) left least s = some (.ok v, s')) : P v := by
  obtain ⟨t, s₁, hp, ⟨-, rfl, rfl⟩ | ⟨-, t', s₂, w, s₃, ht, hled, hresume⟩⟩ :=
    resume_eq_ok_iff.mp hx
  · exact hleft
  have hpeek := Session.later_peek (c := c) s
  rw [hp] at hpeek
  have hs₁ := hs.later hpeek
  have htake := Session.later_take (c := c) s₁
  rw [ht] at htake
  have hs₂ : s₂.countLed.Offers T := (hs₁.later htake).later (Session.later_countLed s₂)
  have hw : P w := h.act (hg.led t' left (hs₁.of_take ht) hleft) hs₂ hled
  exact h.resume w least s₃ v s' hw (hs₂.later (act_later hled)) hresume

/-- **All that is parsed is of the kind.** -/
theorem produces (hg : g.Makes c T P) (n : Nat) : g.Produces c T P n := by
  induction n with
  | zero => exact ⟨fun _ _ _ _ _ h => (by cases h), fun _ _ _ _ _ _ _ h => (by cases h)⟩
  | succ n ih =>
    exact ⟨fun _ _ _ _ hs h => ih.expression_succ hg hs h,
      fun _ _ _ _ _ hleft hs h => ih.resume_succ hg hleft hs h⟩

/-- **The value of a text is of the kind,** if the tokens of the text are of theirs. -/
theorem of_parse {r : Recognizer} {input : String} {stats : Stats} (hr : g.recognizer = .ok r)
    (hg : g.Makes (g.context input) T P)
    (htokens : ∀ t ∈ (r.scan input).tokens, T t)
    (hending : ∀ t, (r.scan input).ending.symbol? = some t.symbol → T t)
    (h : g.parse input = some (.ok (v, stats))) : P v := by
  rw [parse_eq_whole hr] at h
  obtain ⟨⟨result, s'⟩, hwhole, hresult⟩ := Option.map_eq_some_iff.mp h
  cases hresult
  obtain ⟨w, s, hx, hend⟩ := Outcome.andThen_eq_ok_iff.mp hwhole
  obtain ⟨t, s₁, -, hend⟩ := Outcome.andThen_eq_ok_iff.mp hend
  have hv : w = v := by
    split at hend
    · cases hend
      rfl
    · cases hend
  subst hv
  exact (produces hg _).expression 0 _ w s ⟨htokens, hending⟩ hx

end Grammar

end Precedence
