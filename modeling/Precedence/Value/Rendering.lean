import Precedence.Json.Basic
import Precedence.Text.Alphanumeric
import Precedence.Value.Basic

/-!
# Values as text and as data

`render` writes a value the way it is read: infix operators between their operands, others next to
them. An operand that is itself a node stands in parentheses if its operator binds less tightly
than the outer one, or equally so unless both are the same associative operator. A first operand
that begins with a minus sign stands in parentheses if the outer operator binds tighter than the
sign. `data` turns operator nodes into lists that begin with the symbol.
-/

namespace Precedence

open Precedence.Number Precedence.Text

/-- The binding power of the operand of a minus sign. -/
def signPower : Nat := 70

namespace Operator

/-- Whether a node of the operator `inner` stands in parentheses as an operand of `outer`. -/
def needsParens (outer inner : Operator) : Bool :=
  inner.power < outer.power ||
    (inner.power == outer.power && !(inner.associative && inner.symbol == outer.symbol))

/-- What stands between the symbol and the one operand: a space if the symbol is like a word. -/
def gap (op : Operator) : List Char :=
  if op.symbol.toList.any isAlphanumeric then [' '] else []

end Operator

namespace Value

/-- The binding power of the minus sign that the text of a value begins with. -/
def prefixPower? : Value → Option Nat
  | negation _ => some signPower
  | integer n => if n < 0 then some signPower else none
  | real x => if signBit x then some signPower else none
  | rational q => if q.numer < 0 then some signPower else none
  | var _ | node _ _ => none

/-- Whether a value stands in parentheses as an operand; `leading` says that nothing of the outer
node stands before it. -/
def needsParens (outer : Operator) (leading : Bool) : Value → Bool
  | node inner _ => outer.needsParens inner
  | v => leading && v.prefixPower?.any (· < outer.power)

/-- A text in parentheses. -/
def parenthesized (text : List Char) : List Char :=
  '(' :: text ++ [')']

/-- A text, in parentheses if so demanded. -/
def wrap (parens : Bool) (text : List Char) : List Char :=
  if parens then parenthesized text else text

/-- Whether the value is an operator node. -/
def isNode : Value → Bool
  | node _ _ => true
  | _ => false

mutual

/-- The characters of a value. -/
def render : Value → List Char
  | integer n => (toString n).toList
  | real x => (writeReal .plain x).toList
  | rational q => q.text.toList
  | negation inner => '-' :: wrap inner.isNode (render inner)
  | var name => name.toList
  | node op operands => renderOperands op true operands

/-- The characters of the operands of a node with the symbol between or next to them; `first`
says that no operand came before. -/
def renderOperands (op : Operator) (first : Bool) : List Value → List Char
  | [] => []
  | v :: rest =>
    (match op.fixity with
    | .prefixOp =>
      op.symbol.toList ++ op.gap ++ wrap (v.needsParens op false) (render v)
    | .postfixOp =>
      wrap (v.needsParens op true) (render v) ++ op.gap ++ op.symbol.toList
    | .infixOp =>
      (if first then [] else ' ' :: op.symbol.toList ++ [' ']) ++
        wrap (v.needsParens op first) (render v)) ++
    renderOperands op false rest

end

/-- The value as text. -/
def text (v : Value) : String :=
  String.ofList v.render

mutual

/-- The value as data. -/
def data : Value → Json
  | integer n => .integer n
  | real x => .real x
  | rational q => .list [.string "/", .integer q.numer, .integer q.denom]
  | negation inner => .list [.string "-", data inner]
  | var name => .string name
  | node op operands => .list (.string op.symbol :: dataItems operands)

/-- Values as items of data. -/
def dataItems : List Value → List Json
  | [] => []
  | v :: rest => data v :: dataItems rest

end

mutual

/-- The value with its whole structure spelled out. -/
def describe : Value → String
  | integer n => "int(" ++ toString n ++ ")"
  | real x => "real(" ++ writeReal .plain x ++ ")"
  | rational q => "rat(" ++ toString q.numer ++ "," ++ toString q.denom ++ ")"
  | negation inner => "neg(" ++ describe inner ++ ")"
  | var name => "var(" ++ name ++ ")"
  | node op operands => "expr[" ++ op.describeFlags ++ ": " ++ describeAll operands ++ "]"

/-- Values spelled out with commas between them. -/
def describeAll : List Value → String
  | [] => ""
  | [v] => describe v
  | v :: rest => describe v ++ ", " ++ describeAll rest

end

end Value

namespace Rational

/-- A fraction as data. -/
def data (q : Rational) : Json :=
  (Value.rational q).data

end Rational

end Precedence
