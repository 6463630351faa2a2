/-!
# Arithmetic faults

The operations of arithmetic, the kinds of values they may be asked to work on, and the reasons
why one has no result.
-/

namespace Precedence

/-- The operations with two operands. -/
inductive Operation where
  | add
  | subtract
  | multiply
  | divide
  | power
deriving DecidableEq, Inhabited

namespace Operation

/-- The operation as a verb. -/
def verb : Operation → String
  | add => "add"
  | subtract => "subtract"
  | multiply => "multiply"
  | divide => "divide"
  | power => "exponentiate"

end Operation

/-- The kinds of values. -/
inductive Kind where
  | integer
  | real
  | rational
  | negation
  | var
  | expression
deriving DecidableEq, Inhabited

namespace Kind

/-- The name of a kind. -/
def name : Kind → String
  | integer => "integer"
  | real => "real"
  | rational => "rational"
  | negation => "negation"
  | var => "variable"
  | expression => "expression"

end Kind

/-- Why an operation has no result. -/
inductive ArithmeticError where
  /-- A zero denominator or divisor, or the reciprocal of zero. -/
  | divisionByZero
  /-- The exact result has more than 64 bits. -/
  | overflow
  /-- The operation is not defined for operands of the kind. -/
  | unsupported (operation : Operation) (operand : Kind)
deriving DecidableEq

namespace ArithmeticError

/-- The error in words. -/
def message : ArithmeticError → String
  | divisionByZero => "division by zero"
  | overflow => "integer overflow"
  | unsupported operation operand =>
    "unimplemented operation: can't " ++ operation.verb ++ " " ++ operand.name

end ArithmeticError

end Precedence
