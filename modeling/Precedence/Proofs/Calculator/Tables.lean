import Precedence.Calculator.Grammars
import Precedence.Proofs.Building.Additions
import Precedence.Proofs.Building.Compilation
import Precedence.Proofs.Parsing.Tokens

/-!
# The tables of the calculator grammars

Both calculator grammars have the same symbols in the same order, with the same patterns, binding
powers and null denotations. They differ only in what an operation does with its operands.

* `ofEntries_calculatorSymbols`: the one recognizer of both.
* `algebra_eq`, `arithmetic_eq`: the two grammars, each with its table.
-/

namespace Precedence

open Precedence.Pattern Precedence.Text

namespace Operation

/-- How an operation is written. -/
def sign : Operation → String
  | add => "+"
  | subtract => "-"
  | multiply => "*"
  | divide => "/"
  | power => "^"

/-- How tightly an operation binds its left operand. -/
def leftPower : Operation → Nat
  | add | subtract => 50
  | multiply | divide => 60
  | power => 80

/-- How tightly an operation binds its right operand. -/
def rightPower : Operation → Nat
  | add | subtract => 50
  | multiply | divide => 60
  | power => 79

/-- The operator of an operation in symbolic values. -/
def operator : Operation → Operator
  | add => (Operator.between "+" 50 .left).withFlags true true
  | subtract => Operator.between "-" 50 .left
  | multiply => (Operator.between "*" 60 .left).withFlags true true
  | divide => Operator.between "/" 60 .left
  | power => Operator.between "^" 80 .right

theorem rightPower_operator (op : Operation) : op.operator.rightPower = op.rightPower := by
  cases op <;> rfl

end Operation

namespace Calculator

open Grammar

/-! ## The table -/

/-- The symbol of an operation. -/
def operationSymbol (operator? : Operation → Option Operator) (led : Operation → Led Value)
    (nud? : Option (Nud Value)) (op : Operation) : Symbol Value where
  id := op.sign
  power := op.leftPower
  pattern? := some (.literal op.sign)
  operator? := operator? op
  nud? := nud?
  led? := some (led op)

/-- The symbols of operands. -/
def operandSymbols : List (Symbol Value) :=
  [Symbol.fresh endId none,
    { Symbol.fresh "(number)" (some (.regex numberPattern)) with
      nud? := some (Build.literalNud convertNumber) },
    { Symbol.fresh "(name)" (some (.regex namePattern)) with
      nud? := some (Build.literalNud convertName) },
    Symbol.fresh ")" (some (.literal ")")),
    { Symbol.fresh "(" (some (.literal "(")) with nud? := some parentheses }]

/-- The table of a calculator with the given operators and left denotations. -/
def calculatorSymbols (operator? : Operation → Option Operator) (led : Operation → Led Value) :
    List (Symbol Value) :=
  operandSymbols ++ [operationSymbol operator? led (some minus) .subtract,
    operationSymbol operator? led none .add, operationSymbol operator? led none .multiply,
    operationSymbol operator? led none .divide, operationSymbol operator? led none .power]

/-- Where the table has the class of numbers. -/
theorem index?_number_of_symbols {g : Grammar Value} {operator? : Operation → Option Operator}
    {led : Operation → Led Value} (hs : g.symbols = calculatorSymbols operator? led)
    (input : String) : (g.context input).index? (classId "number") = some 1 := by
  simp [Context.index?, context, entries, hs, calculatorSymbols, operandSymbols, Symbol.fresh,
    classId, endId, List.findIdx?_cons]

/-- What the calculators have in common. -/
def vocabularyGrammar : Grammar Value where
  symbols := operandSymbols ++
    [{ Symbol.fresh "-" (some (.literal "-")) with nud? := some minus }]
  recognizer? := none
  maxDepth := defaultMaxDepth

/-! ## The recognizer -/

/-- One or more digits. -/
def digitsRegex : Regex :=
  .rep (.chars decimalDigits) 1 none true

/-- The regular expression of numbers. -/
def numberRegex : Regex :=
  .seq digitsRegex
    (.seq (.rep (.seq (.char '.') digitsRegex) 0 (some 1) true)
      (.rep (.seq (.chars ⟨[(69, 69), (101, 101)]⟩)
        (.seq (.rep (.char '-') 0 (some 1) true) digitsRegex)) 0 (some 1) true))

/-- The characters that a name begins with. -/
def nameStart : CharSet where
  runs := [(65, 90), (95, 95), (97, 122)]

/-- The characters of a name. -/
def nameRest : CharSet where
  runs := [(48, 57), (65, 90), (95, 95), (97, 122)]

/-- The regular expression of names. -/
def nameRegex : Regex :=
  .seq (.chars nameStart) (.rep (.chars nameRest) 0 none true)

/-- The recognizer for the table of a calculator. -/
def calculatorRecognizer : Recognizer where
  rules := [(3, .text [')']), (4, .text ['(']), (5, .text ['-']), (6, .text ['+']),
    (7, .text ['*']), (8, .text ['/']), (9, .text ['^']), (1, .regex numberRegex),
    (2, .regex nameRegex)]

/-- The recognizer does not depend on what the operations do. -/
theorem ofEntries_calculatorSymbols (operator? : Operation → Option Operator)
    (led : Operation → Led Value) :
    Recognizer.ofEntries ((calculatorSymbols operator? led).map (·.toEntry)) =
      .ok calculatorRecognizer := by
  have hr : (⟨calculatorSymbols (fun op => some op.operator) fun op => Build.betweenLed op.operator,
      none, defaultMaxDepth⟩ : Grammar Value).recognizer = .ok calculatorRecognizer :=
    recognizer_eq_ok_of_toOption (by decide +kernel)
  exact (Recognizer.ofEntries_congr rfl).trans hr

/-! ## The calculators -/

/-- A calculator with the given operators and left denotations, and with its recognizer. -/
def calculatorGrammar (operator? : Operation → Option Operator) (led : Operation → Led Value) :
    Grammar Value where
  symbols := calculatorSymbols operator? led
  recognizer? := some calculatorRecognizer
  maxDepth := defaultMaxDepth

/-- To make the recognizer of a calculator is to keep it. -/
theorem compile_on (operator? : Operation → Option Operator) (led : Operation → Led Value) :
    (do let _ ← Build.compile : Build Value Unit).on
        ⟨calculatorSymbols operator? led, none, defaultMaxDepth⟩ =
      (.ok (), calculatorGrammar operator? led) := by
  have hr : (⟨calculatorSymbols operator? led, none, defaultMaxDepth⟩ : Grammar Value).recognizer =
      .ok calculatorRecognizer := by
    rw [recognizer]
    exact ofEntries_calculatorSymbols operator? led
  unfold Build.compile
  simp only [Build.on_bind, Build.on_get, Build.on_liftM, hr]
  rfl

theorem vocabulary_on : vocabulary.on initial = (.ok (), vocabularyGrammar) := by
  have hnumber : (Recognizer.checkRegex (classId "number") numberPattern).toOption.isSome = true :=
    by decide +kernel
  have hname : (Recognizer.checkRegex (classId "name") namePattern).toOption.isSome = true := by
    decide +kernel
  unfold vocabulary
  rw [Build.on_bind, Build.literal_on_new "number" (by decide) (by decide) hnumber
    (by decide)]
  simp only
  rw [Build.on_bind, Build.literal_on_new "name" (by decide) (by decide) hname
    (by decide)]
  simp only
  rw [Build.on_bind, Build.symbol_on_new ")" (by decide) (by decide +kernel),
    known_of_index? (by decide +kernel) (by decide)]
  simp only
  rw [Build.on_bind, Build.nud_on_new "(" (by decide) (by decide +kernel),
    known_of_index? (by decide +kernel) (by decide)]
  simp only
  rw [Build.on_bind, Build.nud_on_new "-" (by decide) (by decide +kernel),
    known_of_index? (by decide +kernel) (by decide)]
  rfl

theorem arithmetic_eq :
    arithmetic = calculatorGrammar (fun _ => none) fun op => computed op op.rightPower := by
  unfold arithmetic arithmeticBuild
  rw [Build.on_bind, vocabulary_on]
  simp only
  rw [Build.on_bind, Build.led_on_new "+" (by decide) (by decide +kernel),
    known_of_index? (by decide +kernel) (by decide)]
  simp only
  rw [Build.on_bind, Build.led_on_known "-" (i := 5) (by decide) (by decide +kernel)]
  simp only
  rw [Build.on_bind, Build.led_on_new "*" (by decide) (by decide +kernel),
    known_of_index? (by decide +kernel) (by decide)]
  simp only
  rw [Build.on_bind, Build.led_on_new "/" (by decide) (by decide +kernel),
    known_of_index? (by decide +kernel) (by decide)]
  simp only
  rw [Build.on_bind, Build.led_on_new "^" (by decide) (by decide +kernel),
    known_of_index? (by decide +kernel) (by decide)]
  simp only
  exact congrArg Prod.snd (compile_on (fun _ => none) fun op => computed op op.rightPower)

theorem algebra_eq :
    algebra = calculatorGrammar (fun op => some op.operator)
      fun op => Build.betweenLed op.operator := by
  have hb : algebraBuild = (do
      vocabulary
      let _ ← Build.between Operation.add.operator
      let _ ← Build.between Operation.subtract.operator
      let _ ← Build.between Operation.multiply.operator
      let _ ← Build.between Operation.divide.operator
      let _ ← Build.between Operation.power.operator
      let _ ← Build.compile) := rfl
  unfold algebra
  rw [hb, Build.on_bind, vocabulary_on]
  simp only
  rw [Build.on_bind, Build.between_on_new Operation.add.operator (by decide)
    (by decide +kernel), known_of_index? (by decide +kernel) (by decide)]
  simp only
  rw [Build.on_bind, Build.between_on_known Operation.subtract.operator (i := 5)
    (by decide) (by decide +kernel)]
  simp only
  rw [Build.on_bind, Build.between_on_new Operation.multiply.operator (by decide)
    (by decide +kernel), known_of_index? (by decide +kernel) (by decide)]
  simp only
  rw [Build.on_bind, Build.between_on_new Operation.divide.operator (by decide)
    (by decide +kernel), known_of_index? (by decide +kernel) (by decide)]
  simp only
  rw [Build.on_bind, Build.between_on_new Operation.power.operator (by decide)
    (by decide +kernel), known_of_index? (by decide +kernel) (by decide)]
  simp only
  exact congrArg Prod.snd (compile_on (fun op => some op.operator)
    fun op => Build.betweenLed op.operator)

/-- The table of `arithmetic`. -/
theorem arithmetic_symbols :
    arithmetic.symbols = calculatorSymbols (fun _ => none)
      fun op => computed op op.rightPower := by
  rw [arithmetic_eq, calculatorGrammar]

/-- The table of `algebra`. -/
theorem algebra_symbols :
    algebra.symbols = calculatorSymbols (fun op => some op.operator)
      fun op => Build.betweenLed op.operator := by
  rw [algebra_eq, calculatorGrammar]

theorem algebra_recognizer : algebra.recognizer = .ok calculatorRecognizer := by
  rw [algebra_eq]
  rfl

theorem arithmetic_recognizer : arithmetic.recognizer = .ok calculatorRecognizer := by
  rw [arithmetic_eq]
  rfl

/-- The limit to the depth that a grammar has at first. -/
theorem maxDepth_arithmetic : arithmetic.maxDepth = 256 := by
  rw [arithmetic_eq]
  rfl

end Calculator

end Precedence
