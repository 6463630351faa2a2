import Precedence.Exact.Rational

/-!
# Exact arithmetic

Sums, differences, products, quotients and powers of exact numbers. Two integers stay integers
where the operation keeps them whole; all else goes through fractions. A result is exact or there
is none: the only faults are a division by zero and a result of more than 64 bits.
-/

namespace Precedence

open Precedence.Number

namespace Exact

/-- The numerator. -/
def numer : Exact → Int
  | integer n => n
  | rational q => q.numer

/-- The denominator; one for integers. -/
def denom : Exact → Int
  | integer _ => 1
  | rational q => q.denom

end Exact

namespace Rational

/-- The sum of a fraction and an exact number. -/
def add (q : Rational) (x : Exact) : Except ArithmeticError Exact :=
  make (q.numer * x.denom + x.numer * q.denom) (q.denom * x.denom)

/-- The difference of a fraction and an exact number. -/
def subtract (q : Rational) (x : Exact) : Except ArithmeticError Exact :=
  make (q.numer * x.denom - x.numer * q.denom) (q.denom * x.denom)

/-- The product of a fraction and an exact number. -/
def multiply (q : Rational) (x : Exact) : Except ArithmeticError Exact :=
  make (q.numer * x.numer) (q.denom * x.denom)

/-- The quotient of a fraction and an exact number. -/
def divide (q : Rational) (x : Exact) : Except ArithmeticError Exact :=
  make (q.numer * x.denom) (q.denom * x.numer)

/-- One divided by a fraction. -/
def reciprocal (q : Rational) : Except ArithmeticError Exact :=
  make q.denom q.numer

/-- The opposite of a fraction. -/
def neg (q : Rational) : Except ArithmeticError Rational :=
  reduce (-q.numer) q.denom

/-- The greatest exponent, in amount, that is tried on a base other than 0, 1 and -1. -/
def greatestExponent : Nat := 1 <<< 32 - 1

/-- A power of an integer, if it has 64 bits. Bases other than 0, 1 and -1 at least double with
every factor, so that exponents above 63 are out of the question. -/
def narrowPow (base : Int) (exponent : Nat) : Except ArithmeticError Int :=
  if base.natAbs ≤ 1 then narrow (Int.pow base (if exponent = 0 then 0 else 2 - exponent % 2))
  else if 63 < exponent then .error .overflow
  else narrow (Int.pow base exponent)

/-- A power of a fraction by an exponent that is not negative. -/
def powNat (base : Rational) (exponent : Nat) : Except ArithmeticError Exact :=
  if base.denom = 1 ∧ (base.numer = 0 ∨ base.numer = 1) ∧ exponent ≠ 0 then
    .ok (.integer base.numer)
  else if base.denom = 1 ∧ base.numer = -1 then
    .ok (.integer (if exponent % 2 = 0 then 1 else -1))
  else if greatestExponent < exponent then .error .overflow
  else do
    let n ← narrowPow base.numer exponent
    let d ← narrowPow base.denom exponent
    make n d

/-- A power of a fraction. A negative exponent takes the power of the reciprocal. -/
def pow (q : Rational) (exponent : Int) : Except ArithmeticError Exact :=
  if exponent < 0 then do
    let inverse ← q.reciprocal
    powNat ⟨inverse.numer, inverse.denom⟩ exponent.natAbs
  else powNat q exponent.natAbs

end Rational

namespace Exact

/-- The sum. -/
def add : Exact → Exact → Except ArithmeticError Exact
  | integer a, integer b => (narrow (a + b)).map integer
  | rational q, x => q.add x
  | x, rational q => q.add x

/-- The difference. -/
def subtract : Exact → Exact → Except ArithmeticError Exact
  | integer a, integer b => (narrow (a - b)).map integer
  | rational q, x => q.subtract x
  | integer a, x => (Rational.whole a).subtract x

/-- The product. -/
def multiply : Exact → Exact → Except ArithmeticError Exact
  | integer a, integer b => (narrow (a * b)).map integer
  | rational q, x => q.multiply x
  | x, rational q => q.multiply x

/-- The quotient, a fraction where an integer does not divide evenly. -/
def divide : Exact → Exact → Except ArithmeticError Exact
  | integer a, x => (Rational.whole a).divide x
  | rational q, x => q.divide x

/-- The power with an integer exponent. -/
def pow : Exact → Int → Except ArithmeticError Exact
  | integer a, e => (Rational.whole a).pow e
  | rational q, e => q.pow e

/-- The opposite. -/
def neg : Exact → Except ArithmeticError Exact
  | integer a => (narrow (-a)).map integer
  | rational q => q.neg.map rational

/-- The nearest real number. -/
def toReal : Exact → Float
  | integer n => Float.ofInt n
  | rational q => q.toReal

/-- The number in text. -/
def text : Exact → String
  | integer n => toString n
  | rational q => q.text

end Exact

end Precedence
