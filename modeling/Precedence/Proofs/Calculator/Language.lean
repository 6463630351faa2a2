import Precedence.Proofs.Calculator.Recognition
import Precedence.Proofs.Number.Digits
import Precedence.Proofs.Value.Shapes

/-!
# The language of symbolic expressions

`Phrase.denoted` is what a derivation denotes: operations are kept with `Term.combine`, from the
left in sums and products and from the right in powers, and every minus sign before an operand
negates it. Where all numbers are small a parse cannot tell a negative literal from a negated one.

* `denoted_eq_value`: so a phrase with small numbers has the value that it denotes.
* `algebra_parse_iff`: `algebra` accepts the texts whose terminals are derived from a sum, and gives
  what any derivation of them denotes.
-/

namespace Precedence

namespace Calculator

open Precedence.Number

/-- The text is made of digits and stands for an integer of 64 bits. -/
structure IsSmallNumber (text : String) : Prop where
  digits : IsDigits text
  le : (digitsValue text.toList : Int) ≤ greatestInteger

instance (text : String) : Decidable (IsSmallNumber text) :=
  decidable_of_iff (IsDigits text ∧ (digitsValue text.toList : Int) ≤ greatestInteger)
    ⟨fun h => ⟨h.1, h.2⟩, fun h => ⟨h.1, h.2⟩⟩

namespace Phrase

/-- What a derivation denotes. -/
def denoted : {N : Level} → Phrase N → Option Value
  | _, number text => (Value.readNumber text).toOption
  | _, name text => some (.var text)
  | _, group e => e.denoted
  | _, plain a => a.denoted
  | _, raised a u => do
    return Term.combine Operation.power.operator (← a.denoted) (← u.denoted)
  | _, negated u => do (← u.denoted).negate.toOption
  | _, factor u => u.denoted
  | _, multiplied t u => do
    return Term.combine Operation.multiply.operator (← t.denoted) (← u.denoted)
  | _, divided t u => do
    return Term.combine Operation.divide.operator (← t.denoted) (← u.denoted)
  | _, term t => t.denoted
  | _, added e t => do
    return Term.combine Operation.add.operator (← e.denoted) (← t.denoted)
  | _, subtracted e t => do
    return Term.combine Operation.subtract.operator (← e.denoted) (← t.denoted)

/-- All numbers of a phrase are small. -/
def HasSmallNumbers {N : Level} (e : Phrase N) : Prop :=
  ∀ text, .number text ∈ e.terminals → IsSmallNumber text

variable {op : Operation} {a : Phrase (.left op)} {b : Phrase (.right op)}

theorem denoted_applied : (applied op a b).denoted =
    (do return Term.combine op.operator (← a.denoted) (← b.denoted)) := by
  cases op <;> rfl

/-- A phrase is at least as long as it is high. -/
theorem height_le_length {N : Level} (e : Phrase N) : e.tally.height ≤ e.terminals.length := by
  induction e using inductionOn with
  | number _ => exact Nat.zero_le _
  | name _ => exact Nat.zero_le _
  | group e ih =>
    simp only [tally, Tally.and, Tally.operand, Tally.nested, terminals, List.length_append,
      List.length_cons]
    omega
  | plain a ih => exact ih
  | negated u ih =>
    simp only [tally, terminals, List.length_cons]
    split
    · omega
    · simp only [Tally.and, Tally.operand, Tally.nested]
      omega
  | factor u ih => exact ih
  | term t ih => exact ih
  | applied op a b iha ihb =>
    rw [tally_applied, terminals_applied]
    simp only [Tally.and, Tally.operator, Tally.nested, List.length_append, List.length_cons]
    omega

end Phrase

end Calculator

/-! ## Values of phrases with small numbers -/

namespace Value

open Precedence.Number

/-- A value that is symbolic, or an integer whose opposite has 64 bits as well. -/
def IsModest : Value → Prop
  | integer n => -greatestInteger ≤ n ∧ n ≤ greatestInteger
  | negation inner => inner.IsBare
  | v => v.IsBare

theorem IsBare.isModest {v : Value} (h : v.IsBare) : v.IsModest := by
  cases v with
  | var name => trivial
  | node op operands => trivial
  | integer _ | real _ | rational _ | negation _ => exact h.elim

/-- Modest values can be negated. -/
theorem IsModest.negate {v : Value} (h : v.IsModest) :
    ∃ w, v.negate = .ok w ∧ w.IsModest := by
  cases v with
  | integer n =>
    have hn : Fits (-n) := by
      simp only [IsModest, greatestInteger] at h
      simp only [Fits, leastInteger, greatestInteger]
      omega
    refine ⟨_, negate_integer hn, ?_⟩
    simp only [IsModest, greatestInteger] at h ⊢
    omega
  | negation inner => exact ⟨inner, rfl, IsBare.isModest h⟩
  | var name => exact ⟨_, rfl, trivial⟩
  | node op operands => exact ⟨_, rfl, trivial⟩
  | real _ | rational _ => exact h.elim

end Value

namespace Calculator

open Precedence.Number

/-- A small number can be read, and with a minus sign in front of it the opposite number. -/
theorem IsSmallNumber.exists_readNumber {text : String} (h : IsSmallNumber text) :
    ∃ v w, Value.readNumber text = .ok v ∧ v.IsModest ∧ v.negate = .ok w ∧
      Value.readNumber ("-" ++ text) = .ok w := by
  obtain ⟨hd, hle⟩ := h
  have hlow : leastInteger ≤ -(digitsValue text.toList : Int) := by
    simp only [leastInteger, greatestInteger] at hle ⊢
    omega
  have hfits : Fits (-(digitsValue text.toList : Int)) := by
    refine ⟨hlow, ?_⟩
    simp only [greatestInteger]
    omega
  refine ⟨_, _, readNumber_of_isDigits hd hle, ?_, Value.negate_integer hfits,
    readNumber_neg_of_isDigits hd hlow⟩
  simp only [Value.IsModest, greatestInteger] at hle ⊢
  omega

namespace Phrase

/-- **A phrase with small numbers has the value that it denotes.** -/
theorem denoted_eq_value {N : Level} (e : Phrase N) (h : e.HasSmallNumbers) :
    ∃ v, e.denoted = some v ∧ e.value kept = some v ∧ v.IsModest := by
  induction e using inductionOn with
  | number text =>
    obtain ⟨v, w, hv, hmodest, -⟩ := (h text List.mem_cons_self).exists_readNumber
    refine ⟨v, ?_, ?_, hmodest⟩
    · rw [denoted, hv]
      rfl
    · rw [value, hv]
      rfl
  | name text => exact ⟨_, rfl, rfl, trivial⟩
  | group e ih => exact ih fun text ht => h text (by simp [terminals, ht])
  | plain a ih => exact ih h
  | negated u ih =>
    obtain ⟨v, hv, hv', hmodest⟩ := ih fun text ht => h text (by simp [terminals, ht])
    obtain ⟨w, hw, hmodest'⟩ := hmodest.negate
    refine ⟨w, by rw [denoted, hv]; simp [hw, Except.toOption], ?_, hmodest'⟩
    cases hl : u.literal? with
    | none =>
      simp only [value, hl, hv']
      simp [hw, Except.toOption]
    | some text =>
      -- The number and the sign are read as one literal, which is the opposite number.
      have hsmall := h text (by simp [terminals, (terminals_of_literal? u hl).1])
      obtain ⟨v', w', hread, -, hnegate, hopposite⟩ := hsmall.exists_readNumber
      rw [value_of_literal? kept u hl, hread] at hv'
      cases hv'
      rw [hw] at hnegate
      cases hnegate
      simp only [value, hl, hopposite]
      rfl
  | factor u ih => exact ih h
  | term t ih => exact ih h
  | applied op a b iha ihb =>
    rw [HasSmallNumbers, terminals_applied] at h
    obtain ⟨v, hv, hv', -⟩ := iha fun text ht => h text (by simp [ht])
    obtain ⟨w, hw, hw', -⟩ := ihb fun text ht => h text (by simp [ht])
    refine ⟨Term.combine op.operator v w, ?_, ?_, (Value.isBare_combine _ _ _).isModest⟩
    · rw [denoted_applied, hv, hw]
      rfl
    · rw [value_applied, hv', hw']
      rfl

/-- The parse of the terminals of a phrase with small numbers gives the value that it denotes. -/
theorem parse_of_terminals {input : String} {depth : Nat} (e : Phrase .sum)
    (he : Terminals (calculatorRecognizer.scan input) e.terminals) (hsmall : e.HasSmallNumbers)
    (hdepth : (calculatorRecognizer.scan input).tokens.length + 1 ≤ depth) :
    ∃ v, e.denoted = some v ∧
      (algebra.setMaxDepth depth).parse input = some (.ok (v, e.stats)) := by
  obtain ⟨v, hv, hv', -⟩ := e.denoted_eq_value hsmall
  have hlength := congrArg List.length he.tokens
  rw [List.length_map, List.length_map] at hlength
  have hheight := e.height_le_length
  exact ⟨v, hv, algebra_parse_of_phrase he hv' (by omega)⟩

end Phrase

/-- The numbers of a phrase are small if those of the text are. -/
theorem hasSmallNumbers_of_terminals {input : String} {e : Phrase .sum}
    (hnumbers : ∀ t ∈ (calculatorRecognizer.scan input).tokens,
      algebra.index? (classId "number") = some t.symbol → IsSmallNumber t.text)
    (he : (calculatorRecognizer.scan input).tokens.map Token.terminal? = e.terminals.map some) :
    e.HasSmallNumbers := by
  intro text htext
  have hmem : some (Terminal.number text) ∈ e.terminals.map some := List.mem_map_of_mem htext
  rw [← he] at hmem
  obtain ⟨t, ht, hterminal⟩ := List.mem_map.mp hmem
  obtain ⟨hsymbol, rfl⟩ := Token.of_terminal?_number hterminal
  refine hnumbers t ht ?_
  rw [hsymbol]
  decide +kernel

/-- **The language of symbolic expressions.** A text is accepted, under every limit to the depth
that is high enough, if its terminals are those of a sum; the value is what any derivation of them
denotes. -/
theorem algebra_parse_iff {r : Recognizer} (hr : algebra.recognizer = .ok r) {input : String}
    (hcomplete : ∃ stop, (r.scan input).ending = .endless stop)
    (hnumbers : ∀ t ∈ (r.scan input).tokens,
      algebra.index? (classId "number") = some t.symbol → IsSmallNumber t.text) :
    ∃ limit, ∀ depth, limit ≤ depth →
      ((∃ v stats, (algebra.setMaxDepth depth).parse input = some (.ok (v, stats))) ↔
        ∃ e : Phrase .sum, (r.scan input).tokens.map Token.terminal? = e.terminals.map some) ∧
      ∀ v stats, (algebra.setMaxDepth depth).parse input = some (.ok (v, stats)) →
        ∀ e : Phrase .sum, (r.scan input).tokens.map Token.terminal? = e.terminals.map some →
          e.denoted = some v := by
  cases hr.symm.trans algebra_recognizer
  obtain ⟨stop, hstop⟩ := hcomplete
  have hending : (calculatorRecognizer.scan input).ending.symbol? = some 0 := by
    have h0 : stop.symbol = 0 :=
      Recognizer.symbol_eq_of_scan isProgressive_calculatorRecognizer
        (show (calculatorRecognizer.scan input).ending.symbol? = some stop.symbol by
          rw [hstop]
          rfl)
    rw [hstop, Ending.symbol?, h0]
  have hfound : ∀ depth, (calculatorRecognizer.scan input).tokens.length + 1 ≤ depth →
      ∀ e : Phrase .sum,
        (calculatorRecognizer.scan input).tokens.map Token.terminal? = e.terminals.map some →
        ∃ v, e.denoted = some v ∧
          (algebra.setMaxDepth depth).parse input = some (.ok (v, e.stats)) :=
    fun depth hdepth e he => e.parse_of_terminals ⟨he, hending⟩
      (hasSmallNumbers_of_terminals hnumbers he) hdepth
  refine ⟨(calculatorRecognizer.scan input).tokens.length + 1, fun depth hdepth => ⟨?_, ?_⟩⟩
  · constructor
    · rintro ⟨v, stats, h⟩
      obtain ⟨e, ⟨he, -⟩, -⟩ := (Grammar.parse_eq_ok_iff_phrase (calculates_algebra depth)).mp h
      exact ⟨e, he⟩
    · rintro ⟨e, he⟩
      obtain ⟨v, -, hv⟩ := hfound depth hdepth e he
      exact ⟨v, e.stats, hv⟩
  · intro v stats h e he
    obtain ⟨w, hw, hparse⟩ := hfound depth hdepth e he
    rw [h] at hparse
    cases hparse
    exact hw

theorem algebra_parse_signs :
    ∃ limit, ∀ depth, limit ≤ depth →
      ((∃ v stats, (algebra.setMaxDepth depth).parse "-2^-x*(3 - -y)" = some (.ok (v, stats))) ↔
        ∃ e : Phrase .sum, (calculatorRecognizer.scan "-2^-x*(3 - -y)").tokens.map Token.terminal? =
          e.terminals.map some) ∧
      ∀ v stats, (algebra.setMaxDepth depth).parse "-2^-x*(3 - -y)" = some (.ok (v, stats)) →
        ∀ e : Phrase .sum, (calculatorRecognizer.scan "-2^-x*(3 - -y)").tokens.map Token.terminal? =
          e.terminals.map some → e.denoted = some v :=
  algebra_parse_iff algebra_recognizer ⟨⟨0, "", ⟨14, 14⟩, 0⟩, by decide +kernel⟩ (by decide +kernel)

end Calculator

end Precedence
