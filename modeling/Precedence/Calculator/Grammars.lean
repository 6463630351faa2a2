import Precedence.Grammar.Parse
import Precedence.Value.Arithmetic
import Precedence.Value.Literal
import Precedence.Value.Rendering

/-!
# The two calculator grammars

Both read numbers, names, parentheses, a minus sign before an operand and the five operators of
arithmetic. `arithmetic` computes while it parses. `algebra` keeps the operators and only negates:
sums and products flatten, differences and quotients nest to the left, powers to the right.

A minus sign directly before a number makes a negative number, unless an operator that binds
tighter than the sign claims the number. That is how the least integer can be written.
-/

namespace Precedence.Calculator

open Precedence.Source

/-- A number without sign, with an optional fraction and exponent. -/
def numberPattern : String := "\\d+(?:\\.\\d+)?(?:[eE]-?\\d+)?"

/-- A name. -/
def namePattern : String := "[A-Za-z_][A-Za-z0-9_]*"

/-- The binding power of sums and differences. -/
def additivePower : Nat := 50

/-- The binding power of products and quotients. -/
def multiplicativePower : Nat := 60

/-- The binding power of powers. -/
def powerPower : Nat := 80

/-- A number literal as a token is converted. -/
def convertNumber (text : String) : Except String Value :=
  match Value.readNumber text with
  | .ok v => .ok v
  | .error e => .error e.message

/-- A name as a token is converted. -/
def convertName (text : String) : Except String Value :=
  .ok (.var text)

/-- The value of a number literal at a span. -/
def literalAt (c : Context) (text : String) (span : Span) : Action Value Value :=
  match Value.readNumber text with
  | .ok v => return v
  | .error e => .fail (c.errorAt .literal e.message span)

/-- The opposite of a value, for a minus sign at a span. -/
def oppositeAt (c : Context) (v : Value) (span : Span) : Action Value Value :=
  match v.negate with
  | .ok v => return v
  | .error e => .fail (c.errorAt .arithmetic e.message span)

/-- Parentheses. -/
def parentheses : Nud Value := fun c _ => do
  let v ← .operand 0
  let _ ← .takeExpected c ")"
  return v

/-- The minus sign before an operand. -/
def minus : Nud Value := fun c sign => do
  let next ← .peekToken
  if c.index? (classId "number") = some next.symbol then
    let number ← Action.takeToken
    let following ← .peekToken
    if c.power following.symbol ≤ signPower then
      literalAt c ("-" ++ number.text) (sign.span.merge number.span)
    else
      let magnitude ← literalAt c number.text number.span
      let v ← .continued magnitude signPower
      oppositeAt c v sign.span
  else
    let v ← .operand signPower
    oppositeAt c v sign.span

/-- An operator that is computed at once. A failure is blamed on the operator. -/
def computed (operation : Operation) (rightPower : Nat) : Led Value := fun c t left => do
  let right ← .operand rightPower
  match left.apply operation right with
  | .ok v => return v
  | .error e => .fail (c.errorAt .arithmetic e.message t.span)

/-- What both grammars have in common: numbers, names, parentheses and the minus sign. -/
def vocabulary : Build Value Unit := do
  let _ ← Build.literal "number" numberPattern convertNumber
  let _ ← Build.literal "name" namePattern convertName
  let _ ← Build.symbol ")" 0
  let _ ← Build.nud "(" parentheses
  let _ ← Build.nud "-" minus

/-- The program of the grammar that computes. -/
def arithmeticBuild : Build Value Unit := do
  vocabulary
  let _ ← Build.led "+" additivePower (computed .add additivePower)
  let _ ← Build.led "-" additivePower (computed .subtract additivePower)
  let _ ← Build.led "*" multiplicativePower (computed .multiply multiplicativePower)
  let _ ← Build.led "/" multiplicativePower (computed .divide multiplicativePower)
  let _ ← Build.led "^" powerPower (computed .power (powerPower - 1))
  let _ ← Build.compile

/-- The program of the grammar that keeps expressions as they are. -/
def algebraBuild : Build Value Unit := do
  vocabulary
  let _ ← Build.algebraic "+" additivePower true true
  let _ ← Build.algebraic "-" additivePower false false
  let _ ← Build.algebraic "*" multiplicativePower true true
  let _ ← Build.algebraic "/" multiplicativePower false false
  let _ ← Build.rightward "^" powerPower
  let _ ← Build.compile

/-- The grammar that computes. -/
def arithmetic : Grammar Value :=
  (arithmeticBuild.on Grammar.initial).2

/-- The grammar that keeps expressions as they are. -/
def algebra : Grammar Value :=
  (algebraBuild.on Grammar.initial).2

/-- Computes an expression, and counts what the parse has done. -/
def evaluate (input : String) : Option (Except ParseError (Value × Stats)) :=
  arithmetic.parse input

/-- Parses an expression without computing it, and counts what the parse has done. -/
def parseSymbolic (input : String) : Option (Except ParseError (Value × Stats)) :=
  algebra.parse input

end Precedence.Calculator
