import Precedence.Proofs.Calculator.Recognition
import Precedence.Proofs.Exact.Numbers
import Precedence.Proofs.Parsing.Failures
import Precedence.Proofs.Value.Shapes

/-!
# Minus signs before a number

Any number of minus signs and then a number. The last sign is part of the literal of the number, and
every other one asks for the opposite of what is behind it, in an expression of its own. So the
limit to the depth, the literal and the opposites are met from the inside out: `signedResult` is
the outcome by recursion on the signs.

* `EndsWith.of_concludes`, `Calculates.endsWith_number`, `Calculates.endsWith_sign`: one step.
* `Calculates.endsWith_signedResult`: an expression has that outcome, by induction on the signs.
* `signedResult_tooDeep`, `signedResult_literal`, `signedResult_least`, `signedResult_integer`: the
  outcome without recursion.
-/

namespace Precedence

open Precedence.Source Precedence.Text Precedence.Number Calculator

/-! ## The parse of signs and a number -/

namespace Grammar

open Session (Proper)

/-- What becomes of a number literal at a span. -/
def literalResult (c : Context) (text : String) (span : Span) : Except ParseError Value :=
  match Value.readNumber text with
  | .ok v => .ok v
  | .error e => .error (c.errorAt .literal e.message span)

/-- What becomes of a value behind a minus sign at a span. -/
def oppositeResult (c : Context) (span : Span) (v : Value) : Except ParseError Value :=
  match v.negate with
  | .ok w => .ok w
  | .error e => .error (c.errorAt .arithmetic e.message span)

/-- What becomes of minus signs and the number behind them where expressions may nest `limit` deep.
The last sign is part of the literal. -/
def signedResult (c : Context) (number : Token) : Nat → List Token → Except ParseError Value
  | 0, signs =>
    .error (c.errorAt .tooDeep "expression nested too deeply" (signs.headD number).span)
  | _ + 1, [] => literalResult c number.text number.span
  | _ + 1, [sign] => literalResult c ("-" ++ number.text) (sign.span.merge number.span)
  | limit + 1, sign :: next :: signs =>
    (signedResult c number limit (next :: signs)).bind (oppositeResult c sign.span)

variable {g : Grammar Value} {perform : Operation → Value → Value → Option Value} {input : String}
variable {c : Context} {least n : Nat} {s s₁ : Session} {t number sign : Token}
variable {signs : List Token} {r : Except ParseError Value} {v : Value}

/-- The expression has the result, and if that is a value nothing is left behind it. -/
def EndsWith (g : Grammar Value) (c : Context) (least : Nat) (s : Session) :
    Except ParseError Value → Prop
  | .ok v => ∃ s', Expresses g c least s v s' ∧ Proper s' ∧ s'.upcoming = []
  | .error e => ExpressionFails g c least s e

/-- The action has the result, and if that is a value nothing is left behind it. -/
def Concludes (g : Grammar Value) (c : Context) (m : Action Value Value) (s : Session) :
    Except ParseError Value → Prop
  | .ok v => ∃ s', Acts g c m s v s' ∧ Proper s' ∧ s'.upcoming = []
  | .error e => ActFails g c m s e

theorem act_literalAt (text : String) (span : Span) :
    g.act c n (literalAt c text span) s = some (literalResult c text span, s) := by
  unfold literalAt literalResult
  cases Value.readNumber text <;> rfl

theorem act_oppositeAt (v : Value) (span : Span) :
    g.act c n (oppositeAt c v span) s = some (oppositeResult c span v, s) := by
  unfold oppositeAt oppositeResult
  cases v.negate <;> rfl

theorem act_literalNud_number (t : Token) :
    g.act c n (Build.literalNud convertNumber c t) s = some (literalResult c t.text t.span, s) := by
  unfold Build.literalNud convertNumber literalResult
  cases Value.readNumber t.text <;> rfl

/-- An action that is nothing but a result. -/
theorem Concludes.of_act {m : Action Value Value} (hs : Proper s) (hu : s.upcoming = [])
    (h : ∀ n, g.act c n m s = some (r, s)) : Concludes g c m s r := by
  cases r with
  | ok v => exact ⟨s, ⟨0, h 0⟩, hs, hu⟩
  | error e => exact ⟨0, s, h 0⟩

/-- An action, and then one that has the result. -/
theorem Concludes.bind {α : Type} {m : Action Value α} {f : α → Action Value Value} {a : α}
    (h : Acts g c m s a s₁) (hf : Concludes g c (f a) s₁ r) : Concludes g c (m >>= f) s r := by
  cases r with
  | ok v =>
    obtain ⟨s', ha, hs'⟩ := hf
    exact ⟨s', h.bind ha, hs'⟩
  | error e => exact ActFails.bind h hf

/-- **One step:** an expression has the result of the token it begins with, if nothing is left
behind that. -/
theorem EndsWith.of_concludes (hg : Calculates g perform) (hd : s.depth < g.maxDepth)
    (ht : s.enter.take (g.context input) = (.ok t, s₁))
    (h : Concludes g (g.context input) (g.nudAction (g.context input) t) s₁.countNud r) :
    EndsWith g (g.context input) least s r := by
  cases r with
  | error e => exact .intro hd (.nud ht h)
  | ok v =>
    obtain ⟨s₂, hact, hs₂, hu₂⟩ := h
    obtain ⟨stop, s₃, hpeek, hstop, halike⟩ := hs₂.peek (c := g.context input)
    have hnext : s₂.next? = none := by simp [Session.next?, Session.ahead, hu₂]
    have hpower : (g.context input).power stop.symbol = 0 := by
      rw [hg.power, Token.power, hstop, hnext]
      rfl
    refine ⟨s₃.leave, .intro hd (.intro ht hact (.stop hpeek ?_)), ?_, ?_⟩
    · rw [hpower]
      exact Nat.zero_le _
    · have hp := (Session.Passes.of_alike hs₂ halike).proper hs₂
      exact ⟨hp.ends, Nat.le_trans (Nat.sub_le _ _) hp.recorded⟩
    · exact halike.upcoming.trans hu₂

/-- A number with nothing behind it, after the last sign. -/
theorem concludes_minus_number (hg : Calculates g perform) (hs : Proper s)
    (hnumber : number.symbol = 1) (hu : s.upcoming = [number]) (sign : Token) :
    Concludes g (g.context input) (minus (g.context input) sign) s
      (literalResult (g.context input) ("-" ++ number.text) (sign.span.merge number.span)) := by
  obtain ⟨s₁, hpeek, h₁⟩ := Session.peek_of_cons (c := g.context input) hu
  have hs₁ := (Session.Passes.of_alike hs h₁).proper hs
  obtain ⟨s₂, htake, hs₂, hu₂, -⟩ := hs₁.take_cons (c := g.context input) (h₁.upcoming.trans hu)
    (Token.terminal?_number hnumber)
  obtain ⟨stop, s₃, hpeek', hstop, h₃⟩ := hs₂.peek (c := g.context input)
  have hnext : s₂.next? = none := by simp [Session.next?, Session.ahead, hu₂]
  have hpower : (g.context input).power stop.symbol ≤ signPower := by
    rw [hg.power, Token.power, hstop, hnext]
    exact Nat.zero_le _
  unfold minus
  refine .bind (.peekToken hpeek) ?_
  rw [if_pos (by rw [hg.index?_number, hnumber])]
  refine .bind ⟨0, by rw [act_takeToken, htake]⟩ (.bind (.peekToken hpeek') ?_)
  rw [if_pos hpower]
  exact .of_act ((Session.Passes.of_alike hs₂ h₃).proper hs₂) (h₃.upcoming.trans hu₂)
    fun n => act_literalAt _ _

/-- A sign in front of what begins with another sign takes the opposite of that. -/
theorem concludes_minus_sign (hg : Calculates g perform) {next : Token} {ts : List Token}
    (hnext : next.symbol = 5) (hu : s.upcoming = next :: ts) (sign : Token)
    (h : ∀ s₁, Session.Alike s s₁ → EndsWith g (g.context input) signPower s₁ r) :
    Concludes g (g.context input) (minus (g.context input) sign) s
      (r.bind (oppositeResult (g.context input) sign.span)) := by
  obtain ⟨s₁, hpeek, h₁⟩ := Session.peek_of_cons (c := g.context input) hu
  have hne : ¬ (g.context input).index? (classId "number") = some next.symbol := by
    rw [hg.index?_number, hnext]
    decide
  have hexpr := h s₁ h₁
  unfold minus
  refine .bind (.peekToken hpeek) ?_
  rw [if_neg hne]
  cases r with
  | ok v =>
    obtain ⟨s₂, hexpr, hs₂, hu₂⟩ := hexpr
    exact .bind (.operand hexpr) (.of_act hs₂ hu₂ fun n => act_oppositeAt _ _)
  | error e =>
    obtain ⟨n, s₂, hn⟩ := hexpr
    refine ⟨n, s₂, ?_⟩
    rw [act_bind, act_operand, hn, Outcome.andThen_error]

/-- An expression that the limit to the depth does not allow fails at its first token. -/
theorem expressionFails_tooDeep {ts : List Token} (hd : g.maxDepth ≤ s.depth)
    (hu : s.upcoming = t :: ts) : ExpressionFails g c least s
      (c.errorAt .tooDeep "expression nested too deeply" t.span) := by
  have hu' : s.enter.upcoming = t :: ts := hu
  obtain ⟨s₁, hpeek, -⟩ := Session.peek_of_cons (c := c) hu'
  exact ⟨1, s₁, by rw [expression_of_ge hd, hpeek, Outcome.andThen_ok]⟩

theorem terminal?_of_symbol (h : t.symbol = 5) : t.terminal? = some (.sign .subtract) := by
  simp only [Token.terminal?, h]

/-- A number with nothing behind it. -/
theorem Calculates.endsWith_number (hg : Calculates g perform) (hnumber : number.symbol = 1)
    (hs : Proper s) (hd : s.depth < g.maxDepth) (hu : s.upcoming = [number]) :
    EndsWith g (g.context input) least s
      (literalResult (g.context input) number.text number.span) := by
  have hnext := Token.terminal?_number hnumber
  obtain ⟨s₁, htake, hs₁, hu₁, -⟩ := hs.enter.take_cons (c := g.context input) hu hnext
  refine .of_concludes hg hd htake ?_
  rw [hg.nudAction_eq hnext rfl]
  exact .of_act ((Session.passes_countNud hs₁).proper hs₁) hu₁ fun n => act_literalNud_number number

/-- A sign has the result of its action on what is behind it, one level deeper. -/
theorem Calculates.endsWith_sign (hg : Calculates g perform) {ts : List Token}
    (hsign : sign.symbol = 5) (hs : Proper s) (hd : s.depth < g.maxDepth)
    (hu : s.upcoming = sign :: ts)
    (h : ∀ s₁, Proper s₁ → s₁.upcoming = ts → s₁.depth = s.depth + 1 →
      Concludes g (g.context input) (minus (g.context input) sign) s₁ r) :
    EndsWith g (g.context input) least s r := by
  have hnext := terminal?_of_symbol hsign
  obtain ⟨s₁, htake, hs₁, hu₁, hdepth⟩ := hs.enter.take_cons (c := g.context input) hu hnext
  refine .of_concludes hg hd htake ?_
  rw [hg.nudAction_eq hnext rfl]
  exact h _ ((Session.passes_countNud hs₁).proper hs₁) hu₁ hdepth

/-- **The run:** signs and the number behind them have the result that is found from the inside
out. -/
theorem Calculates.endsWith_signedResult (hg : Calculates g perform) (hnumber : number.symbol = 1)
    (signs : List Token) :
    ∀ (least : Nat) (s : Session), (∀ t ∈ signs, t.symbol = 5) → Proper s →
      s.upcoming = signs ++ [number] → EndsWith g (g.context input) least s
        (signedResult (g.context input) number (g.maxDepth - s.depth) signs) := by
  induction signs with
  | nil =>
    intro least s _ hs hu
    by_cases hd : s.depth < g.maxDepth
    · obtain ⟨limit, hlimit⟩ := Nat.exists_eq_add_of_lt (Nat.sub_pos_of_lt hd)
      rw [hlimit, Nat.zero_add, signedResult]
      exact hg.endsWith_number hnumber hs hd hu
    · rw [Nat.sub_eq_zero_of_le (Nat.not_lt.mp hd), signedResult]
      exact expressionFails_tooDeep (Nat.not_lt.mp hd) hu
  | cons sign signs ih =>
    intro least s hsigns hs hu
    by_cases hd : s.depth < g.maxDepth
    · obtain ⟨limit, hlimit⟩ := Nat.exists_eq_add_of_lt (Nat.sub_pos_of_lt hd)
      rw [hlimit, Nat.zero_add]
      refine hg.endsWith_sign (hsigns sign List.mem_cons_self) hs hd hu fun s₁ hs₁ hu₁ hdepth₁ => ?_
      cases signs with
      | nil =>
        rw [signedResult]
        exact concludes_minus_number hg hs₁ hnumber hu₁ sign
      | cons next signs =>
        rw [signedResult]
        refine concludes_minus_sign hg (hsigns next (by simp)) hu₁ sign fun s₂ halike => ?_
        have hs₂ := (Session.Passes.of_alike hs₁ halike).proper hs₁
        have hdepth₂ : s₂.depth = s.depth + 1 := halike.depth.trans hdepth₁
        have hih := ih signPower s₂ (fun t ht => hsigns t (List.mem_cons_of_mem sign ht)) hs₂
          (halike.upcoming.trans hu₁)
        rwa [show g.maxDepth - s₂.depth = limit by omega] at hih
    · rw [Nat.sub_eq_zero_of_le (Nat.not_lt.mp hd), signedResult]
      exact expressionFails_tooDeep (Nat.not_lt.mp hd) hu

/-- The result of a text is that of its one expression. -/
theorem Calculates.parse_of_endsWith (hg : Calculates g perform)
    (h : EndsWith g (g.context input) 0
      (Session.start (calculatorRecognizer.scan input) (byteLength input.toList)) r) :
    (g.parse input).map (·.map Prod.fst) = some r := by
  cases r with
  | error e =>
    rw [parse_eq_error hg.recognizer (hg.endIsInert input) h]
    rfl
  | ok v =>
    obtain ⟨s', hexpr, hs', hu'⟩ := h
    obtain ⟨stop, s₁, hpeek, -, -⟩ := hs'.peek (c := g.context input)
    have hend := hs'.isEnd_of_peek (by rw [Session.ahead, hu']; rfl) hpeek
    rw [(parse_eq_ok_iff hg.recognizer (hg.endIsInert input)).mpr
      ⟨s', stop, s₁, hexpr, hpeek, hend, rfl⟩]
    rfl

/-! ## The results of signs -/

section Results

variable {limit : Nat} {front back : List Token} {e : ParseError} {error : NumberError}

/-- An error further inside passes through all signs in front of it. -/
theorem signedResult_append {rest : List Token} (hne : rest ≠ [])
    (h : signedResult c number limit rest = .error e) (front : List Token) :
    signedResult c number (limit + front.length) (front ++ rest) = .error e := by
  induction front with
  | nil => exact h
  | cons sign front ih =>
    obtain ⟨next, signs, hnext⟩ : ∃ next signs, front ++ rest = next :: signs :=
      List.exists_cons_of_ne_nil (by simp [hne])
    rw [hnext] at ih
    rw [List.cons_append, hnext, List.length_cons, ← Nat.add_assoc, signedResult, ih]
    rfl

/-- More signs than expressions may nest. The sign that begins one too many is blamed. -/
theorem signedResult_tooDeep (hfront : front.length = limit) :
    signedResult c number limit (front ++ t :: back) =
      .error (c.errorAt .tooDeep "expression nested too deeply" t.span) := by
  have hinner : signedResult c number 0 (t :: back) =
      .error (c.errorAt .tooDeep "expression nested too deeply" t.span) := rfl
  have houter := signedResult_append (List.cons_ne_nil _ _) hinner front
  rwa [hfront, Nat.zero_add] at houter

/-- A literal with its sign that stands for no number. -/
theorem signedResult_literal (hlimit : front.length < limit)
    (h : Value.readNumber ("-" ++ number.text) = .error error) :
    signedResult c number limit (front ++ [sign]) =
      .error (c.errorAt .literal error.message (sign.span.merge number.span)) := by
  obtain ⟨spare, rfl⟩ := Nat.exists_eq_add_of_lt hlimit
  have hinner : signedResult c number (spare + 1) [sign] =
      .error (c.errorAt .literal error.message (sign.span.merge number.span)) := by
    simp only [signedResult, literalResult, h]
  have houter := signedResult_append (List.cons_ne_nil _ _) hinner front
  rwa [Nat.add_comm, ← Nat.add_assoc] at houter

/-- The least integer has no opposite. -/
theorem signedResult_least {last : Token} (hlimit : front.length + 1 < limit)
    (h : Value.readNumber ("-" ++ number.text) = .ok (.integer leastInteger)) :
    signedResult c number limit (front ++ [sign, last]) =
      .error (c.errorAt .arithmetic ArithmeticError.overflow.message sign.span) := by
  obtain ⟨spare, rfl⟩ := Nat.exists_eq_add_of_lt hlimit
  have hinner : signedResult c number (spare + 2) [sign, last] =
      .error (c.errorAt .arithmetic ArithmeticError.overflow.message sign.span) := by
    simp only [signedResult, literalResult, h]
    rfl
  have houter := signedResult_append (List.cons_ne_nil _ _) hinner front
  rwa [show spare + 2 + front.length = front.length + 1 + spare + 1 by omega] at houter

theorem oppositeResult_integer {m : Int} (h : Fits (-m)) (span : Span) :
    oppositeResult c span (.integer m) = .ok (.integer (-m)) := by
  rw [oppositeResult, Value.negate_integer h]

/-- Every sign takes the opposite of a number that has one. -/
theorem signedResult_integer {n : Nat} (hn : (n : Int) ≤ greatestInteger)
    (hplain : Value.readNumber number.text = .ok (.integer n))
    (hsigned : Value.readNumber ("-" ++ number.text) = .ok (.integer (-n)))
    (hlimit : signs.length ≤ limit) (hpos : 0 < limit) :
    signedResult c number limit signs = .ok (.integer ((-1) ^ signs.length * n)) := by
  induction signs generalizing limit with
  | nil =>
    obtain ⟨limit, rfl⟩ := Nat.exists_eq_succ_of_ne_zero (Nat.ne_of_gt hpos)
    simp [signedResult, literalResult, hplain]
  | cons sign signs ih =>
    obtain ⟨limit, rfl⟩ := Nat.exists_eq_succ_of_ne_zero (Nat.ne_of_gt hpos)
    cases signs with
    | nil => simp [signedResult, literalResult, hsigned]
    | cons next signs =>
      rw [List.length_cons] at hlimit
      rw [List.length_cons] at hlimit ih
      have hfits : Fits (-((-1 : Int) ^ (signs.length + 1) * n)) := by
        unfold Fits leastInteger
        unfold greatestInteger at hn ⊢
        rw [Exact.neg_one_pow_eq]
        split <;> omega
      have hpow : (-1 : Int) ^ (signs.length + 1 + 1) * n = -((-1) ^ (signs.length + 1) * n) := by
        rw [pow_succ _ (signs.length + 1), mul_neg_one, neg_mul]
      rw [List.length_cons, List.length_cons, signedResult, ih (by omega) (by omega), hpow]
      exact oppositeResult_integer hfits sign.span

end Results

end Grammar

end Precedence
