import Precedence.Proofs.Calculator.Surroundings
import Precedence.Proofs.Parsing.Failures

/-!
# Parsing in parentheses

What a calculator makes of a text it makes of the text in parentheses, too, whatever stands around
them. So a minus sign in front of parentheses, and an operation between two of them, has the result
that it has on the values of the texts. If that is an error, the parse fails with its message, and
the sign is to blame.

* `IsCalculator.parse_opposite`, `IsCalculator.parse_between`: the answers to the two kinds of
  texts.
* `parse_composed`: these, and the answer to a text in parentheses, for both calculators.
-/

namespace Precedence

open Precedence.Source Precedence.Text Calculator

namespace Calculator

/-- The calculators, each with what it makes of an operation on two values. -/
inductive IsCalculator :
    Grammar Value → (Operation → Value → Value → Except ArithmeticError Value) → Prop where
  | algebra : IsCalculator algebra fun op v w => .ok (Term.combine op.operator v w)
  | arithmetic : IsCalculator arithmetic fun op v w => v.apply op w

/-- An operation as one that has no result where it fails. -/
def attempted (perform : Operation → Value → Value → Except ArithmeticError Value)
    (op : Operation) (v w : Value) : Option Value :=
  (perform op v w).toOption

/-- The answer to a text whose value is the result of an operation: that value, or an arithmetic
error at a span of the text, in the words of the operation. -/
def Answers (input : String) (result : Except ArithmeticError Value) (span : Span)
    (answer : Option (Except ParseError (Value × Stats))) : Prop :=
  match result with
  | .ok v => ∃ stats, answer = some (.ok (v, stats))
  | .error e => answer = some (.error ⟨.arithmetic, e.message, input, span⟩)

/-- A text in parentheses. -/
def grouped (a : String) : String :=
  "(" ++ a ++ ")"

/-- A minus sign and a text in parentheses. -/
def opposite (a : String) : String :=
  "-(" ++ a ++ ")"

/-- An operation between two texts in parentheses. -/
def between (op : Operation) (a b : String) : String :=
  "(" ++ a ++ ") " ++ op.sign ++ " (" ++ b ++ ")"

theorem toList_grouped (a : String) : (grouped a).toList = '(' :: (a.toList ++ [')']) := by
  simp [grouped]

theorem toList_opposite (a : String) :
    (opposite a).toList = '-' :: '(' :: (a.toList ++ [')']) := by
  simp [opposite]

theorem toList_between (op : Operation) (a b : String) :
    (between op a b).toList =
      '(' :: (a.toList ++ ')' :: ' ' :: (op.sign.toList ++ ' ' :: '(' :: (b.toList ++ [')']))) := by
  simp [between]

/-! ## The terminals of the texts -/

section Texts

variable {a b : String} {xs ys : List Terminal}

theorem terminals_grouped (h : Terminals (calculatorRecognizer.scan a) xs) :
    Terminals (calculatorRecognizer.scan (grouped a)) (.opening :: xs ++ [.closing]) := by
  have hopening : (Cursor.mk none (grouped a).toList 0).rest.dropWhile isBlank =
      '(' :: (a.toList ++ [')']) := by
    rw [toList_grouped]
    rfl
  obtain ⟨ts, c, hleads, hrest, hts⟩ := exists_leads_group h hopening
  exact (terminals_of_leads hleads hrest hts).1

/-- The sign is the first token. -/
theorem terminals_opposite (h : Terminals (calculatorRecognizer.scan a) xs) :
    Terminals (calculatorRecognizer.scan (opposite a))
        (.sign .subtract :: .opening :: xs ++ [.closing]) ∧
      ∃ t ts, (calculatorRecognizer.scan (opposite a)).tokens = t :: ts ∧ t.span = ⟨0, 1⟩ := by
  have hminus : (Cursor.mk none (opposite a).toList 0).rest.dropWhile isBlank =
      (Terminal.sign .subtract).chars ++ '(' :: (a.toList ++ [')']) := by
    rw [toList_opposite]
    rfl
  obtain ⟨t, c₁, hsign, hrest₁, ht, hspan⟩ := exists_leads_terminal hminus trivial
  have hopening : c₁.rest.dropWhile isBlank = '(' :: (a.toList ++ [')']) := by
    rw [hrest₁]
    rfl
  obtain ⟨ts, c₂, hgroup, hrest₂, hts⟩ := exists_leads_group h hopening
  have hall : ([t] ++ ts).map Token.terminal? =
      (.sign .subtract :: .opening :: xs ++ [.closing] : List Terminal).map some := by
    simp [ht, hts]
  obtain ⟨hterminals, htokens⟩ := terminals_of_leads (hsign.trans hgroup) hrest₂ hall
  refine ⟨hterminals, t, ts, htokens, ?_⟩
  have hoffset : c₁.offset = 1 := by
    have h₁ := hsign.offset
    simp only [hrest₁, toList_opposite, byteLength_cons] at h₁
    rw [show '-'.utf8Size = 1 from rfl] at h₁
    omega
  rw [hspan, hoffset]
  rfl

/-- The sign of the operation stands in front of the second text in parentheses. -/
theorem terminals_between (op : Operation) (ha : Terminals (calculatorRecognizer.scan a) xs)
    (hb : Terminals (calculatorRecognizer.scan b) ys) :
    Terminals (calculatorRecognizer.scan (between op a b))
        ((.opening :: xs ++ [.closing]) ++ .sign op :: (.opening :: ys ++ [.closing])) ∧
      ∃ ts t us, (calculatorRecognizer.scan (between op a b)).tokens = ts ++ t :: us ∧
        us.length = ys.length + 2 ∧
        t.span = ⟨byteLength a.toList + 3, byteLength a.toList + 4⟩ := by
  have hfirst : (Cursor.mk none (between op a b).toList 0).rest.dropWhile isBlank =
      '(' :: (a.toList ++ ')' :: ' ' :: (op.sign.toList ++ ' ' :: '(' :: (b.toList ++ [')']))) := by
    rw [toList_between]
    rfl
  obtain ⟨ts, c₁, hleft, hrest₁, hts⟩ := exists_leads_group ha hfirst
  have hsecond : c₁.rest.dropWhile isBlank =
      (Terminal.sign op).chars ++ ' ' :: '(' :: (b.toList ++ [')']) := by
    rw [hrest₁]
    cases op <;> rfl
  obtain ⟨t, c₂, hsign, hrest₂, ht, hspan⟩ := exists_leads_terminal hsecond trivial
  have hthird : c₂.rest.dropWhile isBlank = '(' :: (b.toList ++ [')']) := by
    rw [hrest₂]
    rfl
  obtain ⟨us, c₃, hright, hrest₃, hus⟩ := exists_leads_group hb hthird
  have hall : (ts ++ ([t] ++ us)).map Token.terminal? =
      ((.opening :: xs ++ [.closing]) ++ .sign op :: (.opening :: ys ++ [.closing]) :
        List Terminal).map some := by
    simp [ht, hts, hus]
  obtain ⟨hterminals, htokens⟩ := terminals_of_leads (hleft.trans (hsign.trans hright)) hrest₃ hall
  refine ⟨hterminals, ts, t, us, htokens, by simpa using congrArg List.length hus, ?_⟩
  have hone : byteLength op.sign.toList = 1 := by cases op <;> rfl
  have hoffset : c₂.offset = byteLength a.toList + 4 := by
    have h₁ := hleft.offset
    have h₂ := hsign.offset
    simp only [hrest₁, hrest₂, toList_between, byteLength_cons, byteLength_append, hone,
      show '('.utf8Size = 1 from rfl, show ')'.utf8Size = 1 from rfl,
      show ' '.utf8Size = 1 from rfl] at h₁ h₂
    omega
  rw [hspan, hoffset, show (Terminal.sign op).chars = op.sign.toList from rfl, hone]
  rfl

end Texts

end Calculator

open Calculator

namespace Session

/-- The tokens that are left are known from their number. -/
theorem Later.upcoming_eq {s s' : Session} {ts us : List Token} (h : Later s s')
    (hs : s.upcoming = ts ++ us) (hl : s'.ahead.length = us.length) : s'.upcoming = us := by
  have hsuffix : us <:+ s.upcoming := ⟨ts, hs.symm⟩
  rw [ahead, List.length_map] at hl
  exact (List.suffix_of_suffix_length_le h.upcoming hsuffix (Nat.le_of_eq hl)).eq_of_length hl

end Session

namespace Grammar

open Session (Proper Passes Later)

section Calculates

variable {g : Grammar Value} {perform : Operation → Value → Value → Option Value} {N : Level}
variable {input : String} {c : Context} {t : Token} {ts us : List Token} {v w : Value}
variable {e : ParseError}

/-- A phrase of any kind that has a value is parsed from a text with its terminals. -/
theorem Calculates.exists_parse (hg : Calculates g perform) {p : Phrase N}
    (hp : Terminals (calculatorRecognizer.scan input) p.terminals)
    (hv : p.value perform = some v) (hd : p.tally.height + 1 ≤ g.maxDepth) :
    ∃ stats, g.parse input = some (.ok (v, stats)) := by
  obtain ⟨p', hterminals, htally, hvalue⟩ := p.exists_widen (N := .sum) (by cases N <;> decide)
  refine ⟨p'.stats, (parse_eq_ok_iff_phrase hg).mpr ⟨p', ?_, ?_, ?_, rfl⟩⟩
  · rwa [hterminals]
  · rw [hvalue, hv]
  · rwa [htally]

/-- A parse fails as its one expression does. -/
theorem Calculates.parse_eq_error (hg : Calculates g perform) (hd : 0 < g.maxDepth)
    (h : BeginFails g (g.context input) 0
      (Session.start (calculatorRecognizer.scan input) (byteLength input.toList)).enter e) :
    g.parse input = some (.error e) :=
  Grammar.parse_eq_error hg.recognizer (hg.endIsInert input) (.intro hd h)

/-- A minus sign in front of parentheses fails if their value has no opposite. -/
theorem Calculates.minus_fails (hg : Calculates g perform) (input : String) {p : Phrase .sum}
    {s : Session} {e : ArithmeticError} (hv : p.value perform = some v) (he : v.negate = .error e)
    (hs : Proper s) (ha : s.ahead = (Phrase.group p).terminals.map some)
    (hd : s.depth + p.tally.height + 2 ≤ g.maxDepth) :
    ActFails g (g.context input) (minus (g.context input) t) s
      ((g.context input).errorAt .arithmetic e.message t.span) := by
  obtain ⟨next, s₁, hpeek, hnext, halike⟩ := hs.peek (c := g.context input)
  have hp := Passes.of_alike hs halike
  have ha₁ : s₁.ahead = (Phrase.group p).terminals.map some ++ [] := by
    rw [List.append_nil, ← ha, hp.ahead]
    rfl
  have hopening : some 1 ≠ some next.symbol := by
    intro h1
    rw [Token.terminal?_number (Option.some.inj h1).symm, Session.next?, ha] at hnext
    cases hnext
  have hd₁ : s₁.depth + (Phrase.group p).tally.nested.height ≤ g.maxDepth := by
    have hheight := Phrase.height_group p
    simp only [hp.depth, Tally.nested]
    omega
  obtain ⟨s', -, -, hexpr⟩ := Reads.expresses signPower hg (reads hg (Phrase.group p)) hv
    (hp.proper hs) ha₁ hd₁ (by decide) (by decide) (by decide)
  refine .bind (.peekToken hpeek) ?_
  rw [hg.index?_number, if_neg hopening]
  refine .bind (.operand hexpr) ?_
  rw [oppositeAt, he]
  exact .fail _

/-- The text in front of which the sign stands fails at the sign if its value has no opposite. -/
theorem Calculates.parse_opposite_eq_error (hg : Calculates g perform) {p : Phrase .sum}
    {a : String} {e : ArithmeticError} (ha : Terminals (calculatorRecognizer.scan a) p.terminals)
    (hv : p.value perform = some v) (he : v.negate = .error e)
    (hd : p.tally.height + 3 ≤ g.maxDepth) :
    g.parse (opposite a) = some (.error ⟨.arithmetic, e.message, opposite a, ⟨0, 1⟩⟩) := by
  obtain ⟨hterminals, t, ts, htokens, hspan⟩ := terminals_opposite ha
  let s := (Session.start (calculatorRecognizer.scan (opposite a))
    (byteLength (opposite a).toList)).enter
  have hs : Proper s := ⟨hterminals.ending, Nat.le_refl 1⟩
  have hahead : s.ahead =
      some (.sign .subtract) :: (Phrase.group p).terminals.map some :=
    hterminals.tokens
  obtain ⟨t', s₁, htake, ht, ha₁, hp₁⟩ := hs.take (c := g.context (opposite a)) hahead
  obtain ⟨s₂, htake', -⟩ := Session.take_of_cons (c := g.context (opposite a))
    (s := s) (t := t) htokens
  cases htake.symm.trans htake'
  have hs₁ := hp₁.proper hs
  have hp₂ := Session.passes_countNud hs₁
  have hd₂ : s₁.countNud.depth = 1 := by rw [hp₂.depth, hp₁.depth]; rfl
  have hfail := hg.minus_fails (opposite a) (t := t) hv he (hp₂.proper hs₁) ha₁
    (by rw [hd₂]; omega)
  rw [hspan] at hfail
  refine hg.parse_eq_error (by omega) (.nud htake ?_)
  rw [hg.nudAction_eq ht rfl]
  exact hfail

end Calculates

end Grammar

namespace Calculator

open Grammar Session

variable {g : Grammar Value} {perform : Operation → Value → Value → Except ArithmeticError Value}
variable {depth : Nat} {a b : String} {v w : Value} {op : Operation} {e : ArithmeticError}
variable {p q : Phrase .sum}

namespace IsCalculator

theorem calculates (h : IsCalculator g perform) (depth : Nat) :
    (g.setMaxDepth depth).Calculates (attempted perform) := by
  cases h with
  | algebra => exact calculates_algebra depth
  | arithmetic => exact calculates_arithmetic depth

/-- An operation that fails does so at its sign, behind its right operand. -/
theorem led_fails (h : IsCalculator g perform) {c : Context} {t : Token} {s s' : Session}
    (he : perform op v w = .error e) (ht : t.terminal? = some (.sign op))
    (hw : Expresses (g.setMaxDepth depth) c op.rightPower s w s') :
    ActFails (g.setMaxDepth depth) c ((g.setMaxDepth depth).ledAction c t v) s
      (c.errorAt .arithmetic e.message t.span) := by
  cases h with
  | algebra => cases he
  | arithmetic =>
    rw [ledAction_eq ((symbols_setMaxDepth _ depth).trans arithmetic_symbols) ht]
    unfold computed
    refine .bind (.operand hw) ?_
    rw [show v.apply op w = .error e from he]
    exact .fail _

/-- An operation in front of parentheses fails at its sign if it fails on its operands. -/
theorem resume_fails (h : IsCalculator g perform) (depth : Nat) (input : String) {s : Session}
    {t : Token} (hw : q.value (attempted perform) = some w)
    (he : perform op v w = .error e) (hs : Proper s) (ht : s.upcoming.head? = some t)
    (ha : s.ahead = some (.sign op) :: (Phrase.group q).terminals.map some)
    (hd : s.depth + q.tally.height + 2 ≤ depth) :
    ResumeFails (g.setMaxDepth depth) ((g.setMaxDepth depth).context input) v 0 s
      (((g.setMaxDepth depth).context input).errorAt .arithmetic e.message t.span) := by
  have hg := h.calculates depth
  have hbounds : 0 < op.leftPower ∧ op.rightPower < Level.atom.floor := by cases op <;> decide
  obtain ⟨t', s₁, s₂, hpeek, htake, ht', hsign, ha₂, hp₂⟩ :=
    hs.peek_take (c := (g.setMaxDepth depth).context input) ha
  cases ht.symm.trans ht'
  have hs₂ := hp₂.proper hs
  have hp₃ := Session.passes_countLed hs₂
  have ha₃ : s₂.countLed.ahead = (Phrase.group q).terminals.map some ++ [] := by
    rw [List.append_nil]
    exact ha₂
  have hd₃ : s₂.countLed.depth + (Phrase.group q).tally.nested.height ≤ depth := by
    have hheight := Phrase.height_group q
    simp only [hp₃.depth, hp₂.depth, Tally.nested]
    omega
  obtain ⟨s', -, -, hexpr⟩ := Reads.expresses op.rightPower hg (reads hg (Phrase.group q)) hw
    (hp₃.proper hs₂) ha₃ hd₃ hbounds.2 (Nat.zero_le _) (Nat.zero_le _)
  refine .led hpeek ?_ htake (h.led_fails he hsign hexpr)
  rw [hg.power, Token.power, hsign]
  exact hbounds.1

/-- An operation between texts in parentheses fails at its sign if it fails on their values. -/
theorem parse_between_eq_error (h : IsCalculator g perform)
    (ha : Terminals (calculatorRecognizer.scan a) p.terminals)
    (hb : Terminals (calculatorRecognizer.scan b) q.terminals)
    (hv : p.value (attempted perform) = some v)
    (hw : q.value (attempted perform) = some w)
    (he : perform op v w = .error e) (hp : p.tally.height + 2 ≤ depth)
    (hq : q.tally.height + 3 ≤ depth) :
    (g.setMaxDepth depth).parse (between op a b) =
      some (.error ⟨.arithmetic, e.message, between op a b,
        ⟨byteLength a.toList + 3, byteLength a.toList + 4⟩⟩) := by
  have hg := h.calculates depth
  obtain ⟨hterminals, ts, t, us, htokens, hlength, hspan⟩ := terminals_between op ha hb
  let s := (Session.start (calculatorRecognizer.scan (between op a b))
    (byteLength (between op a b).toList)).enter
  have hs : Proper s := ⟨hterminals.ending, Nat.le_refl 1⟩
  have hahead : s.ahead = (Phrase.group p).terminals.map some ++
      some (.sign op) :: (Phrase.group q).terminals.map some := by
    refine hterminals.tokens.trans ?_
    rw [List.map_append]
    rfl
  have hd : s.depth + (Phrase.group p).tally.height ≤ depth := by
    rw [Phrase.height_group, show s.depth = 1 from rfl, Nat.add_comm]
    exact hp
  obtain ⟨t₀, s₀, s₁, htake, hact, ha₁, hp₁⟩ := acts_group hg (reads hg p) hv hs hahead hd
  -- What is left begins with the sign, as the terminals that are left show.
  have hlater : Later s s₁ := by
    obtain ⟨n, hn⟩ := hact
    have htaken := Session.later_take (c := (g.setMaxDepth depth).context (between op a b)) s
    rw [htake] at htaken
    exact htaken.trans ((Session.later_countNud s₀).trans (act_later hn))
  have hupcoming : s₁.upcoming = t :: us := by
    refine hlater.upcoming_eq htokens ?_
    simp [ha₁, Phrase.terminals, hlength]
  have hfail := h.resume_fails depth (between op a b) (t := t) hw he
    (hp₁.proper hs) (by rw [hupcoming]; rfl) ha₁
    (by
      rw [hp₁.depth, show s.depth = 1 from rfl]
      omega)
  rw [hspan] at hfail
  exact hg.parse_eq_error (Nat.lt_of_lt_of_le (Nat.succ_pos _) hp) (.resume htake hact hfail)

/-- What a text that is accepted is: a sum that has the value, at the depth of the parse. -/
theorem exists_phrase (h : IsCalculator g perform) {stats : Stats}
    (ha : (g.setMaxDepth depth).parse a = some (.ok (v, stats))) :
    ∃ p : Phrase .sum, Terminals (calculatorRecognizer.scan a) p.terminals ∧
      p.value (attempted perform) = some v ∧
      stats.depth = p.tally.height + 1 := by
  obtain ⟨p, hp, hv, -, rfl⟩ := (parse_eq_ok_iff_phrase (h.calculates depth)).mp ha
  exact ⟨p, hp, hv, rfl⟩

theorem parse_grouped (h : IsCalculator g perform)
    (ha : Terminals (calculatorRecognizer.scan a) p.terminals)
    (hv : p.value (attempted perform) = some v)
    (hp : p.tally.height + 2 ≤ depth) :
    ∃ stats, (g.setMaxDepth depth).parse (grouped a) = some (.ok (v, stats)) :=
  (h.calculates depth).exists_parse (p := Phrase.group p) (terminals_grouped ha) hv
    (by rw [Phrase.height_group]; exact hp)

/-- The answer to a minus sign in front of parentheses. -/
theorem parse_opposite (h : IsCalculator g perform)
    (ha : Terminals (calculatorRecognizer.scan a) p.terminals)
    (hv : p.value (attempted perform) = some v)
    (hp : p.tally.height + 3 ≤ depth) :
    Answers (opposite a) v.negate ⟨0, 1⟩ ((g.setMaxDepth depth).parse (opposite a)) := by
  have hg := h.calculates depth
  cases he : v.negate with
  | error e => exact hg.parse_opposite_eq_error ha hv he hp
  | ok u =>
    refine hg.exists_parse (p := Phrase.negated (.plain (.group p))) (terminals_opposite ha).1 ?_ ?_
    · show (p.value (attempted perform)).bind (fun v => v.negate.toOption) = some u
      rw [hv, Option.bind_some, he]
      rfl
    · show ((Phrase.negated (.plain (.group p))).tally.height + 1 ≤ depth)
      rw [Phrase.height_negated, if_neg (by simp [Phrase.head?])]
      show (Phrase.group p).tally.height + 2 ≤ depth
      rw [Phrase.height_group]
      exact hp

/-- The answer to an operation between texts in parentheses. -/
theorem parse_between (h : IsCalculator g perform) (op : Operation)
    (ha : Terminals (calculatorRecognizer.scan a) p.terminals)
    (hb : Terminals (calculatorRecognizer.scan b) q.terminals)
    (hv : p.value (attempted perform) = some v)
    (hw : q.value (attempted perform) = some w)
    (hp : p.tally.height + 2 ≤ depth) (hq : q.tally.height + 3 ≤ depth) :
    Answers (between op a b) (perform op v w)
      ⟨byteLength a.toList + 3, byteLength a.toList + 4⟩
      ((g.setMaxDepth depth).parse (between op a b)) := by
  have hg := h.calculates depth
  cases he : perform op v w with
  | error e => exact h.parse_between_eq_error ha hb hv hw he hp hq
  | ok u =>
    obtain ⟨l, hl, htally, hvalue⟩ :=
      (Phrase.group p).exists_widen (N := .left op) (by cases op <;> decide)
    obtain ⟨r, hr, htally', hvalue'⟩ :=
      (Phrase.group q).exists_widen (N := .right op) (by cases op <;> decide)
    refine hg.exists_parse (p := Phrase.applied op l r) ?_ ?_ ?_
    · rw [Phrase.terminals_applied, hl, hr]
      exact (terminals_between op ha hb).1
    · have hvw : attempted perform op v w = some u := by rw [attempted, he]; rfl
      rw [Phrase.value_applied, hvalue, hvalue']
      show (p.value (attempted perform)).bind (fun v =>
        (q.value (attempted perform)).bind (attempted perform op v)) = some u
      rw [hv, hw]
      exact hvw
    · rw [Phrase.height_applied, htally, htally', Phrase.height_group, Phrase.height_group]
      show _ ≤ depth
      omega

end IsCalculator

/-- **Parsing in parentheses.** Texts that a calculator accepts, alone or side by side with
another, keep their values in parentheses, and a minus sign in front of them or an operation between
them has the result that it has on their values. A failure is blamed on the sign. -/
theorem parse_composed (h : IsCalculator g perform) {da db : Nat} {sa sb : Stats}
    (ha : (g.setMaxDepth da).parse a = some (.ok (v, sa)))
    (hb : (g.setMaxDepth db).parse b = some (.ok (w, sb)))
    (hd : max (sa.depth + 2) (sb.depth + 2) ≤ depth) :
    (∃ stats, (g.setMaxDepth depth).parse (grouped a) = some (.ok (v, stats))) ∧
      Answers (opposite a) v.negate ⟨0, 1⟩ ((g.setMaxDepth depth).parse (opposite a)) ∧
      ∀ op, Answers (between op a b) (perform op v w)
        ⟨byteLength a.toList + 3, byteLength a.toList + 4⟩
        ((g.setMaxDepth depth).parse (between op a b)) := by
  obtain ⟨p, hp, hv, hdepth⟩ := h.exists_phrase ha
  obtain ⟨q, hq, hw, hdepth'⟩ := h.exists_phrase hb
  rw [hdepth, hdepth'] at hd
  obtain ⟨hp', hq'⟩ := Nat.max_le.mp hd
  have hp'' := Nat.le_trans (Nat.le_succ _) hp'
  exact ⟨h.parse_grouped hp hv hp'', h.parse_opposite hp hv hp',
    fun op => h.parse_between op hp hq hv hw hp'' hq'⟩

theorem parse_composed_quotient :
    let parse := (arithmetic.setMaxDepth 4).parse
    (∃ stats, parse "(2 + 3)" = some (.ok (.integer 5, stats))) ∧
      (∃ stats, parse "-(2 + 3)" = some (.ok (.integer (-5), stats))) ∧
      parse "(2 + 3) / (1 - 1)" = some (.error
        ⟨.arithmetic, "division by zero", "(2 + 3) / (1 - 1)", ⟨8, 9⟩⟩) := by
  let number (text : String) : Phrase .product := .factor (.plain (.number text))
  let sum : Phrase .sum := .added (.term (number "2")) (number "3")
  let difference : Phrase .sum := .subtracted (.term (number "1")) (number "1")
  have hsum : (arithmetic.setMaxDepth 2).parse "2 + 3" =
      some (.ok (.integer 5, ⟨3, 2, 1, 2⟩)) :=
    (parse_eq_ok_iff_phrase (calculates_arithmetic 2)).mpr
      ⟨sum, ⟨by decide +kernel, by decide +kernel⟩, rfl, Nat.le_refl 2, by decide +kernel⟩
  have hdifference : (arithmetic.setMaxDepth 2).parse "1 - 1" =
      some (.ok (.integer 0, ⟨3, 2, 1, 2⟩)) :=
    (parse_eq_ok_iff_phrase (calculates_arithmetic 2)).mpr
      ⟨difference, ⟨by decide +kernel, by decide +kernel⟩, rfl, Nat.le_refl 2, by decide +kernel⟩
  obtain ⟨hgrouped, hopposite, hbetween⟩ :=
    parse_composed .arithmetic hsum hdifference (Nat.le_refl 4)
  have hquotient := hbetween .divide
  have hspan :
      Span.mk (byteLength "2 + 3".toList + 3) (byteLength "2 + 3".toList + 4) = ⟨8, 9⟩ := by
    decide +kernel
  rw [show grouped "2 + 3" = "(2 + 3)" by decide] at hgrouped
  rw [show opposite "2 + 3" = "-(2 + 3)" by decide] at hopposite
  rw [show between .divide "2 + 3" "1 - 1" = "(2 + 3) / (1 - 1)" by decide, hspan] at hquotient
  exact ⟨hgrouped, hopposite, hquotient⟩

end Calculator

end Precedence
