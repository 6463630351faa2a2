import Precedence.Calculator.Grammars
import Precedence.Value.Evaluation

/-!
# Functions

An expression as a function of one name, with a second name for the time. A table of points goes
from a first argument to a last one by equal steps. Points whose value is not finite are left out.
-/

namespace Precedence.Calculator

open Precedence.Source

/-- An expression with the names of its parameter and of the time. -/
structure Function where
  body : Value
  parameter : String
  time : String

namespace Function

/-- An expression as a function of `x`, with `t` for the time. -/
def ofBody (body : Value) : Function where
  body := body
  parameter := "x"
  time := "t"

/-- The function of a text. -/
def ofText (input : String) : Option (Except ParseError Function) :=
  (parseSymbolic input).map fun r => r.map fun v => ofBody v.1

/-- What the names stand for. If both are the same, it is the time. -/
def bindings (f : Function) (x t : Float) : Bindings :=
  (Bindings.empty.set f.parameter x).set f.time t

/-- The value at an argument and a time. -/
def callAt (f : Function) (x t : Float) : Except EvaluationError Float :=
  f.body.evaluate (f.bindings x t)

/-- The value at an argument, at time 0. -/
def call (f : Function) (x : Float) : Except EvaluationError Float :=
  f.callAt x 0.0

/-- The most points that a table may have. -/
def maxSamples : Nat := 1000000

/-- The points from number `i` on, after those in `sofar`, the last one first. -/
def samplesFrom (f : Function) (first last width t : Float) :
    Nat → Nat → List (Float × Float) → Except EvaluationError (List (Float × Float))
  | 0, _, sofar => .ok sofar.reverse
  | count + 1, i, sofar =>
    let x := first + width * Float.ofNat i
    if last < x then .ok sofar.reverse
    else
      match f.callAt x t with
      | .error e => .error e
      | .ok y =>
        samplesFrom f first last width t count (i + 1)
          (if y.isFinite then (x, y) :: sofar else sofar)

/-- The table of points from `first` to `last` at a time. The step must be positive and finite, the
bounds finite, and the table not too long. -/
def sampleAt (f : Function) (first last width t : Float) :
    Except EvaluationError (List (Float × Float)) :=
  if !(width.isFinite && 0.0 < width) then .error (.step width)
  else if !(first.isFinite && last.isFinite) then .error (.range first last)
  else if last < first then .ok []
  else
    let count := ((last - first) / width).floor + 1.0
    if Float.ofNat maxSamples < count then .error (.tooManySamples maxSamples)
    else samplesFrom f first last width t count.toUInt64.toNat 0 []

end Function

end Precedence.Calculator
