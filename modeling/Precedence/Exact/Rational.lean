import Precedence.Exact.Fault
import Precedence.Number.Integer

/-!
# Rational numbers

Fractions of two integers of 64 bits. Every fraction that `Rational.reduce` lets through is in
lowest terms and has a positive denominator. Operations compute a numerator and a denominator with
room to spare and reduce them once, at the end, so that only the reduced result has to fit.
-/

namespace Precedence

open Precedence.Number

/-- The integer itself if it has 64 bits, an overflow otherwise. -/
def narrow (n : Int) : Except ArithmeticError Int :=
  match narrow? n with
  | some n => .ok n
  | none => .error .overflow

/-- A fraction. -/
structure Rational where
  numer : Int
  denom : Int
deriving DecidableEq, Inhabited

/-- An exact number: an integer or a fraction. -/
inductive Exact where
  | integer (n : Int)
  | rational (q : Rational)
deriving DecidableEq, Inhabited

namespace Rational

/-- The fraction in lowest terms with a positive denominator, if both its parts have 64 bits. -/
def reduce (numer denom : Int) : Except ArithmeticError Rational :=
  if denom = 0 then .error .divisionByZero
  else do
    let g := Int.ofNat (Int.gcd numer denom)
    let sign := if denom < 0 then -1 else 1
    let n ← narrow (sign * (numer / g))
    let d ← narrow (sign * (denom / g))
    return ⟨n, d⟩

/-- A whole number as a fraction. -/
def whole (n : Int) : Rational where
  numer := n
  denom := 1

/-- Whether the denominator is one. -/
def isWhole (q : Rational) : Bool :=
  q.denom == 1

/-- The fraction as an exact number: an integer if its denominator is one. -/
def collapse (q : Rational) : Exact :=
  if q.denom = 1 then .integer q.numer else .rational q

/-- The reduced fraction as an exact number. -/
def make (numer denom : Int) : Except ArithmeticError Exact :=
  (reduce numer denom).map collapse

/-- The real number nearest to the numerator, divided by the one nearest to the denominator. -/
def toReal (q : Rational) : Float :=
  Float.ofInt q.numer / Float.ofInt q.denom

/-- The fraction in text. -/
def text (q : Rational) : String :=
  toString q.numer ++ "/" ++ toString q.denom

end Rational

end Precedence
