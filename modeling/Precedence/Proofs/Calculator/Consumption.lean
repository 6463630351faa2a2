import Precedence.Proofs.Calculator.Blame
import Precedence.Proofs.Calculator.Conservation
import Precedence.Proofs.Parsing.Consumption

/-!
# What the calculators take

Every token of a text that a calculator accepts is taken once: to start an operand, to continue one,
as a closing parenthesis, or as a number that belongs to the sign in front of it. A calculator that
fails has taken the end of the text once at most, and has called no more denotations than it has
taken tokens.

* `sparing`: the denotations of both calculators take no end of the text.
* `parse_takes`: what a parse has taken and called, accepted or not.
-/

namespace Precedence

open Precedence.Source Precedence.Text Calculator

namespace Grammar

open Outcome
open Session (Within)

section Denotations

variable {g : Grammar Value} {perform : Operation → Value → Value → Option Value} {input : String}
variable {scan : Scan} {s : Session} {t : Token} {n least : Nat} {c : Context} {left : Value}

theorem spends_literalNud (convert : String → Except String Value) :
    Spends s (g.act c n (Build.literalNud convert c t) s) := by
  unfold Build.literalNud
  cases convert t.text with
  | ok v => exact spends_self _ s
  | error message => exact spends_self _ s

theorem spends_literalAt (text : String) (span : Span) :
    Spends s (g.act c n (literalAt c text span) s) := by
  unfold literalAt
  cases Value.readNumber text with
  | ok v => exact spends_self _ s
  | error e => exact spends_self _ s

theorem spends_oppositeAt (v : Value) (span : Span) :
    Spends s (g.act c n (oppositeAt c v span) s) := by
  unfold oppositeAt
  cases v.negate with
  | ok v => exact spends_self _ s
  | error e => exact spends_self _ s

/-- A token that is expected is not the end of the text. -/
theorem spends_takeExpected (hscan : scan.Ends) (id : String) (hs : s.Within scan) :
    Spends s (g.act c n (.takeExpected c id) s) := by
  unfold Action.takeExpected
  rw [act_bind, act_peekToken]
  refine spends_peek_andThen fun t s₁ hp => ?_
  split
  · exact spends_self _ s₁
  rename_i hend
  split
  · exact spends_self _ s₁
  rw [act_takeToken]
  refine spends_take fun t' s₂ ht => ?_
  obtain rfl := Session.take_of_peek hp ht
  have hsymbol : t'.symbol ≠ 0 := fun h => hend (beq_iff_eq.mpr h)
  exact ((hs.of_peek_ok hp).takes_of_symbol_ne hscan ht hsymbol).pays

theorem spends_parentheses (hscan : scan.Ends) (hn : g.SpendsWithin c scan n)
    (hs : s.Within scan) : Spends s (g.act c n (parentheses c t) s) := by
  have hkept := Session.isKept_within (c := c) scan
  unfold parentheses
  rw [act_bind, act_operand]
  refine (hn.expression 0 s hs).andThen fun v s₁ hv => ?_
  rw [act_bind]
  refine (spends_takeExpected hscan ")" ((keeps g hkept n).expression _ _ _ hv hs)).andThen ?_
  exact fun _ s₂ _ => spends_self _ s₂

/-- A minus sign takes the number behind it without a call, or has an operand parsed. -/
theorem spends_minus (hg : Calculates g perform) (hscan : scan.Ends)
    (hn : g.SpendsWithin (g.context input) scan n) (hs : s.Within scan) :
    Spends s (g.act (g.context input) n (minus (g.context input) t) s) := by
  unfold minus
  rw [act_bind, act_peekToken]
  refine spends_peek_andThen fun next s₁ hp => ?_
  have hs₁ := hs.of_peek_ok hp
  rw [hg.index?_number]
  split
  · rename_i hnext
    rw [act_bind, act_takeToken]
    refine spends_take_andThen fun number s₂ ht => ?_
    obtain rfl := Session.take_of_peek hp ht
    have hsymbol : number.symbol ≠ 0 := by
      rw [← Option.some.inj hnext]
      exact Nat.one_ne_zero
    refine Spends.of_pays (hs₁.takes_of_symbol_ne hscan ht hsymbol).pays ?_
    have hs₂ := hs₁.of_take_ok ht
    rw [act_bind, act_peekToken]
    refine spends_peek_andThen fun following s₃ hp' => ?_
    split
    · exact spends_literalAt _ _
    · rw [act_bind]
      refine (spends_literalAt _ _).andThen fun m s₄ hm => ?_
      obtain ⟨-, rfl⟩ := act_literalAt_iff.mp hm
      rw [act_bind, act_continued]
      refine (hn.resume m signPower s₄ (hs₂.of_peek_ok hp')).andThen fun v s₅ _ => ?_
      exact spends_oppositeAt v _
  · rw [act_bind, act_operand]
    exact (hn.expression signPower s₁ hs₁).andThen fun v s₂ _ => spends_oppositeAt v _

theorem spends_nudAction (hg : Calculates g perform) (hscan : scan.Ends)
    (hn : g.SpendsWithin (g.context input) scan n) (hs : s.Within scan) :
    Spends s (g.act (g.context input) n (g.nudAction (g.context input) t) s) := by
  cases hx : t.terminal?.bind Terminal.nud? with
  | none =>
    rw [nudAction, hg.nud?_eq, hx]
    simp only
    split
    · exact spends_self _ s
    · exact spends_self _ s
  | some nud =>
    obtain ⟨x, ht, hnud⟩ := Option.bind_eq_some_iff.mp hx
    rw [hg.nudAction_eq ht hnud]
    cases x with
    | number text =>
      cases hnud
      exact spends_literalNud convertNumber
    | name text =>
      cases hnud
      exact spends_literalNud convertName
    | opening =>
      cases hnud
      exact spends_parentheses hscan hn hs
    | closing => cases hnud
    | sign op =>
      cases op with
      | subtract =>
        cases hnud
        exact spends_minus hg hscan hn hs
      | add | multiply | divide | power => cases hnud

theorem spends_computed (op : Operation) (hn : g.SpendsWithin c scan n) (hs : s.Within scan) :
    Spends s (g.act c n (computed op least c t left) s) := by
  unfold computed
  rw [act_bind, act_operand]
  refine (hn.expression least s hs).andThen fun right s₁ _ => ?_
  cases left.apply op right with
  | ok v => exact spends_self _ s₁
  | error e => exact spends_self _ s₁

theorem spends_betweenLed (op : Operator) (hn : g.SpendsWithin c scan n) (hs : s.Within scan) :
    Spends s (g.act c n (Build.betweenLed op c t left) s) := by
  unfold Build.betweenLed
  rw [act_bind, act_operand]
  exact (hn.expression op.rightPower s hs).andThen fun right s₁ _ => spends_self _ s₁

/-- A calculator is sparing if its operations are. -/
theorem sparing_of_led (hg : Calculates g perform) (hscan : scan.Ends)
    {operator? : Operation → Option Operator} {led : Operation → Led Value}
    (hsymbols : g.symbols = calculatorSymbols operator? led)
    (hled : ∀ n op t left s, g.SpendsWithin (g.context input) scan n → s.Within scan →
      Spends s (g.act (g.context input) n (led op (g.context input) t left) s)) :
    g.Sparing (g.context input) scan where
  ends := hscan
  power t ht := by
    rw [hg.power, Token.power, Token.terminal?, ht]
    rfl
  nud_end n t s ht := by
    have hnud : t.terminal?.bind Terminal.nud? = none := by
      rw [Token.terminal?, ht]
      rfl
    have hend : t.isEnd = true := beq_iff_eq.mpr ht
    rw [nudAction, hg.nud?_eq, hnud]
    simp only [hend, if_true]
    exact ⟨_, rfl⟩
  nud _ _ _ hn hs _ := spends_nudAction hg hscan hn hs
  led n t left s hn hs hpower := by
    obtain ⟨op, hop⟩ := hg.exists_sign_of_power hpower
    rw [ledAction_eq hsymbols hop]
    exact hled n op t left s hn hs

end Denotations

/-- **The denotations of both calculators take no end of the text.** -/
theorem sparing {g : Grammar Value} (hg : g = arithmetic ∨ g = algebra) {input : String}
    {scan : Scan} (hscan : scan.Ends) : g.Sparing (g.context input) scan := by
  obtain ⟨perform, hg'⟩ := exists_calculates hg
  rcases hg with h | h
  · exact sparing_of_led hg' hscan (h ▸ arithmetic_symbols) fun n op t left s hn hs =>
      spends_computed op hn hs
  · exact sparing_of_led hg' hscan (h ▸ algebra_symbols) fun n op t left s hn hs =>
      spends_betweenLed op.operator hn hs

end Grammar

namespace Calculator

variable {g : Grammar Value} {r : Recognizer} {input : String} {v : Value} {stats : Stats}

/-- What is counted of a text that is accepted. -/
theorem stats_of_accepted (hg : g = arithmetic ∨ g = algebra) (hr : g.recognizer = .ok r)
    (h : g.parse input = some (.ok (v, stats))) :
    let ts := terminalsOf (r.scan input)
    ts.length = (r.scan input).tokens.length ∧ stats.tokens = (r.scan input).tokens.length ∧
      stats.leds = (operations .fresh ts).length ∧
      stats.nuds + stats.leds + ts.count .closing + (signedNumbers .fresh ts).length =
        stats.tokens := by
  obtain ⟨perform, hg'⟩ := exists_calculates hg
  cases hr.symm.trans hg'.recognizer
  obtain ⟨e, hterminals, -, -, rfl⟩ := (Grammar.parse_eq_ok_iff_phrase hg').mp h
  have hbalance := e.tally_balance (p := .fresh) (by decide)
  rw [if_neg (fun h => by cases h.1), Nat.add_zero] at hbalance
  rw [hterminals.terminalsOf_eq]
  exact ⟨hterminals.length_eq, hterminals.length_eq, e.leds_eq (by decide), hbalance⟩

/-- **Every token of a text is taken once.** Where a calculator accepts a text it has taken all of
its tokens: one for every operand that it starts, one for every sign between operands, every closing
parenthesis, and every number directly behind a sign that begins an operand. Whether it accepts the
text or not, it ends, has taken at most one token more than there are, and has called no more
denotations than it has taken tokens. -/
theorem parse_takes (hg : g = arithmetic ∨ g = algebra) (hr : g.recognizer = .ok r)
    (input : String) :
    let scan := r.scan input
    let ts := terminalsOf scan
    (∀ v stats, g.parse input = some (.ok (v, stats)) →
      ts.length = scan.tokens.length ∧ stats.tokens = scan.tokens.length ∧
        stats.leds = (operations .fresh ts).length ∧
        stats.nuds + stats.leds + ts.count .closing + (signedNumbers .fresh ts).length =
          stats.tokens) ∧
      ∃ result s', g.parse input = some result ∧
        g.whole (g.context input) (g.stepBound scan)
          (Session.start scan (byteLength input.toList)) = some (result, s') ∧
        s'.stats.tokens ≤ scan.tokens.length + 1 ∧
        s'.stats.nuds + s'.stats.leds ≤ s'.stats.tokens := by
  refine ⟨fun v stats h => stats_of_accepted hg hr h, ?_⟩
  obtain ⟨perform, hg'⟩ := exists_calculates hg
  cases hr.symm.trans hg'.recognizer
  obtain ⟨result, s', hparse, hrun⟩ := Grammar.exists_outcome hr (hg'.endIsInert input)
  exact ⟨result, s', hparse, hrun, (Grammar.sparing hg (ends_scan input)).counts_le hrun⟩

theorem parse_takes_flattened :
    let ts := terminalsOf (calculatorRecognizer.scan "-3*(2*x) - -z")
    algebra.recognizer = .ok calculatorRecognizer ∧ ts.length = 11 ∧
      (operations .fresh ts).length = 3 ∧
      6 + 3 + ts.count .closing + (signedNumbers .fresh ts).length = 11 := by
  obtain ⟨haccepted, -⟩ := parse_takes (.inr rfl) algebra_recognizer "-3*(2*x) - -z"
  obtain ⟨hlength, htokens, hleds, hbalance⟩ := haccepted _ _ parseSymbolic_flattened
  exact ⟨algebra_recognizer, hlength.trans htokens.symm, hleds.symm, hbalance⟩

/-- The end of the text is taken where an operand is missing. -/
example : ((arithmetic.whole (arithmetic.context "2 +") 9
    (Session.start (calculatorRecognizer.scan "2 +") 3)).map fun o =>
      (o.2.stats.tokens, o.2.stats.nuds, o.2.stats.leds)) = some (3, 2, 1) := by
  decide +kernel

end Calculator

end Precedence
