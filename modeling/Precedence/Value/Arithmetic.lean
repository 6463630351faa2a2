import Precedence.Value.Basic

/-!
# Arithmetic on values

Operations on exact numbers give exact results. As soon as a real number takes part, or a power
has an exponent that is not whole, the result is real. Names, negations and operator nodes take no
part in arithmetic.
-/

namespace Precedence

namespace Exact

/-- The exact result of an operation; none for a power with a fraction as exponent. -/
def onExact? (operation : Operation) (a b : Exact) : Option (Except ArithmeticError Exact) :=
  match operation, b with
  | .add, b => some (a.add b)
  | .subtract, b => some (a.subtract b)
  | .multiply, b => some (a.multiply b)
  | .divide, b => some (a.divide b)
  | .power, .integer e => some (a.pow e)
  | .power, .rational _ => none

end Exact

namespace Operation

/-- The operation on real numbers. -/
def onReals : Operation → Float → Float → Float
  | add, a, b => a + b
  | subtract, a, b => a - b
  | multiply, a, b => a * b
  | divide, a, b => a / b
  | power, a, b => a.pow b

end Operation

/-- A number that an operation works on. -/
inductive Numeric where
  | exact (x : Exact)
  | real (x : Float)

namespace Numeric

/-- The nearest real number. -/
def toReal : Numeric → Float
  | exact x => x.toReal
  | real x => x

/-- The result of an operation, exact if it can be. -/
def apply (operation : Operation) (a b : Numeric) : Except ArithmeticError Value :=
  match a, b with
  | exact x, exact y =>
    match x.onExact? operation y with
    | some result => result.map Value.ofExact
    | none => .ok (.real (operation.onReals x.toReal y.toReal))
  | a, b => .ok (.real (operation.onReals a.toReal b.toReal))

end Numeric

namespace Value

/-- The number that a value is, as an operand of an operation. -/
def numeric (operation : Operation) : Value → Except ArithmeticError Numeric
  | integer n => .ok (.exact (.integer n))
  | rational q => .ok (.exact (.rational q))
  | real x => .ok (.real x)
  | v => .error (.unsupported operation v.kind)

/-- The result of an operation on two values. The left operand is looked at first. -/
def apply (operation : Operation) (left right : Value) : Except ArithmeticError Value := do
  let a ← left.numeric operation
  let b ← right.numeric operation
  a.apply operation b

end Value

end Precedence
