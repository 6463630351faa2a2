import Precedence.Proofs.Calculator.Phrases
import Precedence.Proofs.Parsing.Rules

/-!
# Denotations of the calculators

What the table of a calculator says of a token, by the terminal that the token is, and what it
takes for the actions of terminals to succeed.
-/

namespace Precedence

open Precedence.Source

open Calculator

/-! ## Calculators -/

/-- What a terminal does where an operand begins. -/
def Calculator.Terminal.nud? : Terminal → Option (Nud Value)
  | .number _ => some (Build.literalNud convertNumber)
  | .name _ => some (Build.literalNud convertName)
  | .opening => some parentheses
  | .sign .subtract => some minus
  | _ => none

namespace Grammar

/-- The grammar is a calculator that applies operations as `perform` says. -/
structure Calculates (g : Grammar Value)
    (perform : Operation → Value → Value → Option Value) : Prop where
  recognizer : g.recognizer = .ok calculatorRecognizer
  table : ∃ operator? led, g.symbols = calculatorSymbols operator? led ∧
    ∀ {op c t left n s w s'}, g.act c n (led op c t left) s = some (.ok w, s') ↔
      ∃ right, g.expression c n op.rightPower s = some (.ok right, s') ∧
        perform op left right = some w

/-- An operation has its left denotation from the table. -/
theorem ledAction_eq {g : Grammar Value} {operator? : Operation → Option Operator}
    {led : Operation → Led Value} (hs : g.symbols = calculatorSymbols operator? led)
    {c : Context} {t : Token} {op : Operation} {left : Value}
    (ht : t.terminal? = some (.sign op)) : g.ledAction c t left = led op c t left := by
  have hl : g.symbols[t.symbol]?.bind (·.led?) = some (led op) := by
    rw [hs]
    revert ht
    rw [Token.terminal?]
    rcases t.symbol with _ | _ | _ | _ | _ | _ | _ | _ | _ | _ | i <;> intro ht <;> cases ht <;> rfl
  rw [ledAction, hl]

namespace Calculates

variable {g : Grammar Value} {perform : Operation → Value → Value → Option Value} {input : String}
variable {t : Token} {n : Nat} {s s' : Session} {left v : Value} {c : Context}

theorem power (hg : Calculates g perform) (t : Token) :
    (g.context input).power t.symbol = t.power := by
  obtain ⟨operator?, led, hs, -⟩ := hg.table
  have hp : ∀ i, (g.context input).power i = ((g.symbols[i]?.map (·.power)).getD 0) := by
    intro i
    cases h : g.symbols[i]? with
    | some s =>
      rw [power_context h]
      rfl
    | none =>
      simp [Context.power, Context.entry, context, entries, List.getD_eq_getElem?_getD, h]
      rfl
  rw [hp, hs, Token.power, Token.terminal?]
  rcases t.symbol with _ | _ | _ | _ | _ | _ | _ | _ | _ | _ | i <;> rfl

/-- Only operations bind an operand. -/
theorem exists_sign_of_power (hg : Calculates g perform)
    (h : 0 < (g.context input).power t.symbol) : ∃ op, t.terminal? = some (.sign op) := by
  rw [hg.power, Token.power] at h
  cases hx : t.terminal? with
  | none =>
    rw [hx] at h
    exact absurd h (Nat.lt_irrefl 0)
  | some x =>
    rw [hx] at h
    cases x with
    | sign op => exact ⟨op, rfl⟩
    | number _ | name _ | opening | closing => exact absurd h (Nat.lt_irrefl 0)

theorem index?_number (hg : Calculates g perform) :
    (g.context input).index? (classId "number") = some 1 := by
  obtain ⟨operator?, led, hs, -⟩ := hg.table
  exact index?_number_of_symbols hs input

theorem id_eq_iff (hg : Calculates g perform) (t : Token) :
    (g.context input).id t.symbol = ")" ↔ t.terminal? = some .closing := by
  obtain ⟨operator?, led, hs, -⟩ := hg.table
  have hid : ∀ i, (g.context input).id i = ((g.symbols[i]?.map (·.id)).getD "") := by
    intro i
    cases h : g.symbols[i]? with
    | some s =>
      rw [Context.id, entry_context h]
      rfl
    | none =>
      simp [Context.id, Context.entry, context, entries, List.getD_eq_getElem?_getD, h]
      rfl
  rw [hid, hs, Token.terminal?]
  rcases t.symbol with _ | _ | _ | _ | _ | _ | _ | _ | _ | _ | i <;>
    simp [calculatorSymbols, operandSymbols, Symbol.fresh, endId, operationSymbol, Operation.sign]

/-- The null denotation of a token is that of its terminal. -/
theorem nud?_eq (hg : Calculates g perform) (t : Token) :
    g.symbols[t.symbol]?.bind (·.nud?) = t.terminal?.bind Terminal.nud? := by
  obtain ⟨operator?, led, hs, -⟩ := hg.table
  rw [hs, Token.terminal?]
  rcases t.symbol with _ | _ | _ | _ | _ | _ | _ | _ | _ | _ | i <;> rfl

theorem nudAction_eq (hg : Calculates g perform) {x : Terminal} {nud : Nud Value}
    (ht : t.terminal? = some x) (hx : x.nud? = some nud) : g.nudAction c t = nud c t := by
  rw [nudAction, hg.nud?_eq, ht, Option.bind_some, hx]

/-- A token without a null denotation begins no operand. -/
theorem nudAction_ne (hg : Calculates g perform) (ht : t.terminal?.bind Terminal.nud? = none) :
    g.act c n (g.nudAction c t) s ≠ some (.ok v, s') := by
  rw [nudAction, hg.nud?_eq, ht]
  simp only
  split <;> simp

/-- What an operation does behind an operand. -/
theorem led_eq_ok_iff (hg : Calculates g perform) {op : Operation}
    (ht : t.terminal? = some (.sign op)) :
    g.act c n (g.ledAction c t left) s = some (.ok v, s') ↔
      ∃ right, g.expression c n op.rightPower s = some (.ok right, s') ∧
        perform op left right = some v := by
  obtain ⟨operator?, led, hs, hled⟩ := hg.table
  rw [ledAction_eq hs ht]
  exact hled

end Calculates

/-! ## Actions of operands -/

variable {g : Grammar Value} {c : Context} {t : Token} {n : Nat} {s s' : Session} {v w : Value}

theorem act_literalAt_iff {text : String} {span : Span} :
    g.act c n (literalAt c text span) s = some (.ok v, s') ↔
      (Value.readNumber text).toOption = some v ∧ s' = s := by
  unfold literalAt
  cases Value.readNumber text with
  | error e => simp [Except.toOption]
  | ok w => simp [Except.toOption, eq_comm]

theorem act_number_iff :
    g.act c n (Build.literalNud convertNumber c t) s = some (.ok v, s') ↔
      (Value.readNumber t.text).toOption = some v ∧ s' = s := by
  unfold Build.literalNud convertNumber
  cases Value.readNumber t.text with
  | error e => simp [Except.toOption]
  | ok w => simp [Except.toOption, eq_comm]

theorem act_name_iff :
    g.act c n (Build.literalNud convertName c t) s = some (.ok v, s') ↔
      v = .var t.text ∧ s' = s := by
  simp [Build.literalNud, convertName, eq_comm]

theorem act_oppositeAt_iff {span : Span} :
    g.act c n (oppositeAt c v span) s = some (.ok w, s') ↔
      v.negate.toOption = some w ∧ s' = s := by
  unfold oppositeAt
  cases v.negate with
  | error e => simp [Except.toOption]
  | ok w => simp [Except.toOption, eq_comm]

theorem act_takeExpected_iff {id : String} :
    g.act c n (.takeExpected c id) s = some (.ok t, s') ↔
      ∃ t' s₁, s.peek c = (.ok t', s₁) ∧ t'.isEnd = false ∧ c.id t'.symbol = id ∧
        s₁.take c = (.ok t, s') := by
  unfold Action.takeExpected
  rw [act_bind, Outcome.andThen_eq_ok_iff]
  simp only [act_peekToken, Option.some.injEq]
  constructor
  · rintro ⟨t', s₁, hp, h⟩
    refine ⟨t', s₁, hp, ?_⟩
    split at h
    · simp at h
    · split at h
      · simp at h
      · simp_all
  · rintro ⟨t', s₁, hp, he, hid, ht⟩
    exact ⟨t', s₁, hp, by simp [he, hid, ht]⟩

theorem act_parentheses_iff :
    g.act c n (parentheses c t) s = some (.ok v, s') ↔
      ∃ s₁ t', g.expression c n 0 s = some (.ok v, s₁) ∧
        g.act c n (.takeExpected c ")") s₁ = some (.ok t', s') := by
  unfold parentheses
  simp only [act_bind, act_operand, Outcome.andThen_eq_ok_iff, act_pure]
  constructor
  · rintro ⟨w, s₁, h, t', s₂, ht, he⟩
    cases he
    exact ⟨s₁, t', h, ht⟩
  · rintro ⟨s₁, t', h, ht⟩
    exact ⟨v, s₁, h, t', s', ht, rfl⟩

/-- What it takes for a minus sign to succeed: there is a number behind it that is its literal, or
one that is continued, or there is another operand. -/
theorem act_minus_iff (hnumber : c.index? (classId "number") = some 1) :
    g.act c n (minus c t) s = some (.ok v, s') ↔
      ∃ next s₁, s.peek c = (.ok next, s₁) ∧
        ((next.symbol = 1 ∧ ∃ number s₂ following s₃,
            s₁.take c = (.ok number, s₂) ∧ s₂.peek c = (.ok following, s₃) ∧
            ((c.power following.symbol ≤ signPower ∧
                (Value.readNumber ("-" ++ number.text)).toOption = some v ∧ s' = s₃) ∨
              (signPower < c.power following.symbol ∧ ∃ m u,
                (Value.readNumber number.text).toOption = some m ∧
                g.resume c n m signPower s₃ = some (.ok u, s') ∧
                u.negate.toOption = some v))) ∨
          (next.symbol ≠ 1 ∧ ∃ u, g.expression c n signPower s₁ = some (.ok u, s') ∧
            u.negate.toOption = some v)) := by
  unfold minus
  simp only [act_bind, act_peekToken, Outcome.andThen_eq_ok_iff, Option.some.injEq,
    hnumber]
  refine exists_congr fun next => exists_congr fun s₁ => and_congr_right fun _ => ?_
  by_cases hnext : next.symbol = 1
  · simp only [hnext, if_true, ne_eq, not_true_eq_false, false_and, or_false, true_and, act_bind,
      act_takeToken, act_peekToken, Outcome.andThen_eq_ok_iff, Option.some.injEq]
    refine exists_congr fun number => exists_congr fun s₂ => ?_
    constructor
    · rintro ⟨ht, following, s₃, hp, h⟩
      refine ⟨following, s₃, ht, hp, ?_⟩
      by_cases hle : c.power following.symbol ≤ signPower
      · rw [if_pos hle, act_literalAt_iff] at h
        exact .inl ⟨hle, h⟩
      · rw [if_neg hle] at h
        simp only [act_bind, Outcome.andThen_eq_ok_iff, act_literalAt_iff, act_continued,
          act_oppositeAt_iff] at h
        obtain ⟨m, s₄, ⟨hm, rfl⟩, u, s₅, hr, hv, rfl⟩ := h
        exact .inr ⟨Nat.not_le.mp hle, m, u, hm, hr, hv⟩
    · rintro ⟨following, s₃, ht, hp, ⟨hle, hv⟩ | ⟨hlt, m, u, hm, hr, hv⟩⟩
      · refine ⟨ht, following, s₃, hp, ?_⟩
        rw [if_pos hle, act_literalAt_iff]
        exact hv
      · refine ⟨ht, following, s₃, hp, ?_⟩
        rw [if_neg (Nat.not_le.mpr hlt)]
        simp only [act_bind, Outcome.andThen_eq_ok_iff, act_literalAt_iff, act_continued,
          act_oppositeAt_iff]
        exact ⟨m, s₃, ⟨hm, rfl⟩, u, s', hr, hv, rfl⟩
  · have hne : ¬ 1 = next.symbol := fun h => hnext h.symm
    simp only [hnext, hne, if_false, false_and, false_or, ne_eq, not_false_eq_true, true_and,
      act_bind, act_operand, Outcome.andThen_eq_ok_iff, act_oppositeAt_iff]
    constructor
    · rintro ⟨u, s₂, he, hv, rfl⟩
      exact ⟨u, he, hv⟩
    · rintro ⟨u, he, hv⟩
      exact ⟨u, s', he, hv, rfl⟩

/-- What it takes for a minus sign of a calculator to succeed. -/
theorem Calculates.act_minus_iff {perform : Operation → Value → Value → Option Value}
    {input : String} (hg : Calculates g perform) (hc : c = g.context input) :
    g.act c n (minus c t) s = some (.ok v, s') ↔
      ∃ next s₁, s.peek c = (.ok next, s₁) ∧
        ((next.symbol = 1 ∧ ∃ number s₂ following s₃,
            s₁.take c = (.ok number, s₂) ∧ s₂.peek c = (.ok following, s₃) ∧
            ((following.power ≤ signPower ∧
                (Value.readNumber ("-" ++ number.text)).toOption = some v ∧ s' = s₃) ∨
              (signPower < following.power ∧ ∃ m u,
                (Value.readNumber number.text).toOption = some m ∧
                g.resume c n m signPower s₃ = some (.ok u, s') ∧
                u.negate.toOption = some v))) ∨
          (next.symbol ≠ 1 ∧ ∃ u, g.expression c n signPower s₁ = some (.ok u, s') ∧
            u.negate.toOption = some v)) := by
  subst hc
  simp only [Grammar.act_minus_iff hg.index?_number, hg.power]

end Grammar

/-! ## The two calculators -/

namespace Calculator

open Grammar

theorem act_kept_iff {g : Grammar Value} {op : Operation} {c : Context} {t : Token} {n : Nat}
    {left w : Value} {s s' : Session} :
    g.act c n (Build.betweenLed op.operator c t left) s = some (.ok w, s') ↔
      ∃ right, g.expression c n op.rightPower s = some (.ok right, s') ∧
        kept op left right = some w := by
  unfold Build.betweenLed kept
  rw [act_bind, Outcome.andThen_eq_ok_iff, op.rightPower_operator]
  simp only [act_operand, act_pure, Option.some.injEq, Prod.mk.injEq, Except.ok.injEq]
  constructor
  · rintro ⟨right, s₁, h, hw, rfl⟩
    exact ⟨right, h, hw⟩
  · rintro ⟨right, h, hw⟩
    exact ⟨right, s', h, hw, rfl⟩

theorem act_computed_iff {g : Grammar Value} {op : Operation} {c : Context} {t : Token} {n : Nat}
    {left w : Value} {s s' : Session} :
    g.act c n (computed op op.rightPower c t left) s = some (.ok w, s') ↔
      ∃ right, g.expression c n op.rightPower s = some (.ok right, s') ∧
        computedAtOnce op left right = some w := by
  unfold computed computedAtOnce
  rw [act_bind, Outcome.andThen_eq_ok_iff]
  simp only [act_operand]
  constructor
  · rintro ⟨right, s₁, h, hw⟩
    cases hx : left.apply op right with
    | error e => simp [hx] at hw
    | ok x =>
      simp only [hx, act_pure, Option.some.injEq, Prod.mk.injEq, Except.ok.injEq] at hw
      obtain ⟨rfl, rfl⟩ := hw
      exact ⟨right, h, by rw [hx]; rfl⟩
  · rintro ⟨right, h, hw⟩
    refine ⟨right, s', h, ?_⟩
    cases hx : left.apply op right with
    | error e => simp [hx, Except.toOption] at hw
    | ok x =>
      rw [hx] at hw
      cases hw
      simp

theorem calculates_algebra (depth : Nat) : (algebra.setMaxDepth depth).Calculates kept where
  recognizer := by
    rw [recognizer_setMaxDepth]
    exact algebra_recognizer
  table := by
    rw [symbols_setMaxDepth]
    exact ⟨_, _, algebra_symbols, act_kept_iff⟩

theorem calculates_arithmetic (depth : Nat) :
    (arithmetic.setMaxDepth depth).Calculates computedAtOnce where
  recognizer := by
    rw [recognizer_setMaxDepth]
    exact arithmetic_recognizer
  table := by
    rw [symbols_setMaxDepth]
    exact ⟨_, _, arithmetic_symbols, act_computed_iff⟩

end Calculator

end Precedence
