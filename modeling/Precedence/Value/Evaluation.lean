import Precedence.Number.Real
import Precedence.Value.Basic

/-!
# Evaluation

The real number that a value stands for when its names stand for given numbers. Operands are
evaluated from the left, and before the operator is looked at, so that a name without a number is
found first. Chains of powers are folded from the right, all others from the left.
-/

namespace Precedence

open Precedence.Number

/-- Numbers for names, in the order in which the names were first bound. -/
structure Bindings where
  entries : List (String × Float)

namespace Bindings

/-- No name is bound. -/
def empty : Bindings where
  entries := []

/-- The number bound to a name. -/
def get? (b : Bindings) (name : String) : Option Float :=
  (b.entries.find? (·.1 == name)).map (·.2)

/-- Binds a name, in place of what it was bound to before. -/
def set (b : Bindings) (name : String) (x : Float) : Bindings where
  entries :=
    if b.entries.any (·.1 == name) then
      b.entries.map fun e => if e.1 == name then (name, x) else e
    else b.entries ++ [(name, x)]

/-- The number of names that are bound. -/
def size (b : Bindings) : Nat :=
  b.entries.length

/-- Binds one name after the other; of two bindings of a name the later one counts. -/
def ofList (entries : List (String × Float)) : Bindings :=
  entries.foldl (fun b e => b.set e.1 e.2) empty

end Bindings

/-- Why an expression has no number, or a function no table of points. -/
inductive EvaluationError where
  /-- A name is not bound. -/
  | unbound (name : String)
  /-- An operator means nothing for numbers. -/
  | operator (symbol : String) (fixity : Fixity)
  /-- A step that is not positive and finite. -/
  | step (width : Float)
  /-- Bounds that are not finite. -/
  | range (first last : Float)
  /-- More points than a table may have. -/
  | tooManySamples (most : Nat)

namespace EvaluationError

/-- The error in words. -/
def message : EvaluationError → String
  | unbound name => "unbound variable " ++ name
  | operator symbol fixity => "can't evaluate " ++ fixity.name ++ " operator " ++ symbol
  | step width => "invalid sampling step " ++ writeReal .plain width
  | range first last =>
    "invalid sampling range " ++ writeReal .plain first ++ " to " ++ writeReal .plain last
  | tooManySamples most =>
    "sampling would produce more than " ++ toString most ++ " points"

end EvaluationError

namespace Operator

/-- The numeric meaning of a symbol between operands that fold from the left. -/
def meaning? (symbol : String) : Option (Float → Float → Float) :=
  if symbol = "+" then some (· + ·)
  else if symbol = "-" then some (· - ·)
  else if symbol = "*" then some (· * ·)
  else if symbol = "/" then some (· / ·)
  else none

/-- The last number raised to none, the one before it raised to that, and so on. -/
def powerTower : List Float → Option Float
  | [] => none
  | [x] => some x
  | x :: rest => (powerTower rest).map x.pow

/-- The number that an operator gives for the numbers of its operands. -/
def onNumbers? (op : Operator) (operands : List Float) : Option Float :=
  match op.fixity with
  | .prefixOp =>
    if op.symbol = "-" then operands.head?.map (- ·)
    else if op.symbol = "+" then operands.head?
    else none
  | .infixOp =>
    if op.symbol = "^" then powerTower operands
    else match meaning? op.symbol, operands with
      | some f, x :: rest => some (rest.foldl f x)
      | _, _ => none
  | .postfixOp => none

/-- The number that an operator gives, or the error that it means nothing for numbers. -/
def onNumbers (op : Operator) (operands : List Float) : Except EvaluationError Float :=
  match op.onNumbers? operands with
  | some x => .ok x
  | none => .error (.operator op.symbol op.fixity)

end Operator

namespace Value

mutual

/-- The number that a value stands for. -/
def evaluate (b : Bindings) : Value → Except EvaluationError Float
  | integer n => .ok (Float.ofInt n)
  | real x => .ok x
  | rational q => .ok q.toReal
  | negation inner => (evaluate b inner).map (- ·)
  | var name =>
    match b.get? name with
    | some x => .ok x
    | none => .error (.unbound name)
  | node op operands =>
    match evaluateAll b operands with
    | .ok xs => op.onNumbers xs
    | .error e => .error e

/-- The numbers of the operands, from the left up to the first one without a number. -/
def evaluateAll (b : Bindings) : List Value → Except EvaluationError (List Float)
  | [] => .ok []
  | v :: rest =>
    match evaluate b v with
    | .error e => .error e
    | .ok x =>
      match evaluateAll b rest with
      | .error e => .error e
      | .ok xs => .ok (x :: xs)

end

end Value

end Precedence
