import Precedence.Proofs.Calculator.Denotations
import Precedence.Proofs.Parsing.Blame

/-!
# How the calculators fail

Where the errors of the actions of a calculator come from, for any property `P` of errors: `P` holds
of the errors of an action if it holds of those that the action itself ends with and of those of its
requests. Each rule names the states in which the requests are made.
-/

namespace Precedence

open Precedence.Source Calculator

namespace Grammar

open Outcome
open Session (Within)

variable {g : Grammar Value} {perform : Operation → Value → Value → Option Value} {input : String}
variable {scan : Scan} {s : Session} {t : Token} {n : Nat} {c : Context} {P : ParseError → Prop}

/-- What is not converted is no number. -/
theorem convertNumber_eq_error {text message : String}
    (h : convertNumber text = .error message) :
    ∃ cause, Value.readNumber text = .error cause ∧ message = cause.message := by
  unfold convertNumber at h
  split at h
  · cases h
  · rename_i cause hcause
    cases h
    exact ⟨cause, hcause, rfl⟩

theorem blames_literalNud {convert : String → Except String Value}
    (h : ∀ message, convert t.text = .error message → P (c.errorAt .literal message t.span)) :
    Blames P (g.act c n (Build.literalNud convert c t) s) := by
  unfold Build.literalNud
  cases hv : convert t.text with
  | ok v => exact blames_ok v s
  | error message => exact blames_error (h message hv) s

theorem blames_literalAt {text : String} {span : Span}
    (h : ∀ cause, Value.readNumber text = .error cause →
      P (c.errorAt .literal cause.message span)) :
    Blames P (g.act c n (literalAt c text span) s) := by
  unfold literalAt
  cases hv : Value.readNumber text with
  | ok v => exact blames_ok v s
  | error cause => exact blames_error (h cause hv) s

theorem blames_oppositeAt {v : Value} {span : Span}
    (h : ∀ message, P (c.errorAt .arithmetic message span)) :
    Blames P (g.act c n (oppositeAt c v span) s) := by
  unfold oppositeAt
  cases v.negate with
  | ok v => exact blames_ok v s
  | error e => exact blames_error (h e.message) s

/-- A token that is not there, or is another one. -/
theorem blames_takeExpected (id : String) (hs : s.Within scan)
    (hunrecognized : ∀ span, scan.ending = .unrecognized span →
      P (c.errorAt .unrecognizedInput "unrecognized input" span))
    (hend : ∀ t s₁ message, s.peek c = (.ok t, s₁) → t.isEnd = true →
      P (c.errorAt .unexpectedEnd message t.span))
    (hother : ∀ t s₁ message, s.peek c = (.ok t, s₁) → t.isEnd = false →
      P (c.errorAt .expectedToken message t.span)) :
    Blames P (g.act c n (.takeExpected c id) s) := by
  unfold Action.takeExpected
  rw [act_bind, act_peekToken]
  refine hs.blames_peek_andThen hunrecognized fun t s₁ hp hs₁ => ?_
  split
  · rename_i hisEnd
    exact blames_error (hend t s₁ _ hp hisEnd) s₁
  · rename_i hisEnd
    split
    · exact blames_error (hother t s₁ _ hp (Bool.eq_false_iff.mpr hisEnd)) s₁
    · rw [act_takeToken]
      exact hs₁.blames_take hunrecognized

/-- Parentheses fail with what is in them, or for want of the closing one. -/
theorem blames_parentheses (hexpr : Blames P (g.expression c n 0 s))
    (hclosing : ∀ v s₁, g.expression c n 0 s = some (.ok v, s₁) →
      Blames P (g.act c n (.takeExpected c ")") s₁)) :
    Blames P (g.act c n (parentheses c t) s) := by
  unfold parentheses
  rw [act_bind, act_operand]
  refine hexpr.andThen fun v s₁ hv => ?_
  rw [act_bind]
  exact (hclosing v s₁ hv).andThen fun _ s₂ _ => blames_ok v s₂

/-- A minus sign fails with the number behind it, alone or as part of its literal, with what
continues the number, with another operand, or with the opposite of the operand. -/
theorem blames_minus (hg : Calculates g perform) (hc : c = g.context input) (hs : s.Within scan)
    (hunrecognized : ∀ span, scan.ending = .unrecognized span →
      P (c.errorAt .unrecognizedInput "unrecognized input" span))
    (hopposite : ∀ message, P (c.errorAt .arithmetic message t.span))
    (hjoined : ∀ number s₁ cause, s.peek c = (.ok number, s₁) → number.symbol = 1 →
      Value.readNumber ("-" ++ number.text) = .error cause →
      P (c.errorAt .literal cause.message (t.span.merge number.span)))
    (halone : ∀ number s₁ cause, s.peek c = (.ok number, s₁) → number.symbol = 1 →
      Value.readNumber number.text = .error cause →
      P (c.errorAt .literal cause.message number.span))
    (hclaimed : ∀ number s₁ s₂ following s₃ m, s.peek c = (.ok number, s₁) → number.symbol = 1 →
      s₁.take c = (.ok number, s₂) → s₂.peek c = (.ok following, s₃) →
      signPower < following.power → Value.readNumber number.text = .ok m → s₃.Within scan →
      Blames P (g.resume c n m signPower s₃))
    (hother : ∀ next s₁, s.peek c = (.ok next, s₁) → next.symbol ≠ 1 → s₁.Within scan →
      Blames P (g.expression c n signPower s₁)) :
    Blames P (g.act c n (minus c t) s) := by
  subst hc
  unfold minus
  rw [act_bind, act_peekToken]
  refine hs.blames_peek_andThen hunrecognized fun next s₁ hp hs₁ => ?_
  rw [hg.index?_number]
  split
  · rename_i hnext
    have hnumber := (Option.some.inj hnext).symm
    rw [act_bind, act_takeToken]
    refine hs₁.blames_take_andThen hunrecognized fun number s₂ ht hs₂ => ?_
    obtain rfl := Session.take_of_peek hp ht
    rw [act_bind, act_peekToken]
    refine hs₂.blames_peek_andThen hunrecognized fun following s₃ hp' hs₃ => ?_
    rw [hg.power]
    split
    · exact blames_literalAt fun cause => hjoined number s₁ cause hp hnumber
    · rename_i hlt
      rw [act_bind]
      refine (blames_literalAt fun cause => halone number s₁ cause hp hnumber).andThen
        fun m s₄ hm => ?_
      obtain ⟨hread, rfl⟩ := act_literalAt_iff.mp hm
      rw [act_bind, act_continued]
      refine (hclaimed number s₁ s₂ following s₄ m hp hnumber ht hp' (Nat.not_le.mp hlt)
        (toOption_eq_some_iff.mp hread) hs₃).andThen fun v s₅ _ => ?_
      exact blames_oppositeAt hopposite
  · rename_i hnext
    rw [act_bind, act_operand]
    refine (hother next s₁ hp (fun h => hnext (congrArg some h.symm)) hs₁).andThen fun v s₂ _ => ?_
    exact blames_oppositeAt hopposite

/-- What begins an operand fails as its symbol does, or because it begins none. -/
theorem blames_nudAction (hg : Calculates g perform)
    (hend : t.isEnd = true → P (c.errorAt .unexpectedEnd "unexpected end of input" t.span))
    (hother : t.isEnd = false → P (c.errorAt .syntaxError "syntax error" t.span))
    (hnumber : ∀ cause, t.terminal? = some (.number t.text) →
      Value.readNumber t.text = .error cause → P (c.errorAt .literal cause.message t.span))
    (hopening : t.terminal? = some .opening → Blames P (g.act c n (parentheses c t) s))
    (hminus : t.terminal? = some (.sign .subtract) → Blames P (g.act c n (minus c t) s)) :
    Blames P (g.act c n (g.nudAction c t) s) := by
  cases hx : t.terminal?.bind Terminal.nud? with
  | none =>
    rw [nudAction, hg.nud?_eq, hx]
    simp only
    split
    · rename_i hisEnd
      exact blames_error (hend hisEnd) s
    · rename_i hisEnd
      exact blames_error (hother (Bool.eq_false_iff.mpr hisEnd)) s
  | some nud =>
    obtain ⟨x, ht, hnud⟩ := Option.bind_eq_some_iff.mp hx
    rw [hg.nudAction_eq ht hnud]
    cases x with
    | number text =>
      cases hnud
      obtain ⟨-, rfl⟩ := Token.of_terminal?_number ht
      refine blames_literalNud fun message hm => ?_
      obtain ⟨cause, hcause, rfl⟩ := convertNumber_eq_error hm
      exact hnumber cause ht hcause
    | name text =>
      cases hnud
      exact blames_literalNud fun _ h => by cases h
    | opening =>
      cases hnud
      exact hopening ht
    | closing => cases hnud
    | sign op =>
      cases op with
      | subtract =>
        cases hnud
        exact hminus ht
      | add | multiply | divide | power => cases hnud

theorem blames_computed {op : Operation} {least : Nat} {left : Value}
    (hexpr : Blames P (g.expression c n least s))
    (h : ∀ message, P (c.errorAt .arithmetic message t.span)) :
    Blames P (g.act c n (computed op least c t left) s) := by
  unfold computed
  rw [act_bind, act_operand]
  refine hexpr.andThen fun right s₁ _ => ?_
  cases left.apply op right with
  | ok v => exact blames_ok v s₁
  | error e => exact blames_error (h e.message) s₁

theorem blames_betweenLed {op : Operator} {left : Value}
    (hexpr : Blames P (g.expression c n op.rightPower s)) :
    Blames P (g.act c n (Build.betweenLed op c t left) s) := by
  unfold Build.betweenLed
  rw [act_bind, act_operand]
  exact hexpr.andThen fun right s₁ _ => blames_ok _ s₁

end Grammar

end Precedence
