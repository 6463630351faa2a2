import Precedence.Exact.Arithmetic
import Precedence.Term

/-!
# Values

What an expression stands for: an exact or a real number, a name, the negation of something
symbolic, or an operator applied to operands. `Value.negate` is the only way to make a negation:
it turns numbers into their opposites and takes a negation off instead of adding a second one.
-/

namespace Precedence

/-- The value of an expression. -/
inductive Value where
  /-- A whole number. -/
  | integer (n : Int)
  /-- A real number. -/
  | real (x : Float)
  /-- A fraction. -/
  | rational (q : Rational)
  /-- The opposite of a name or an operator node. -/
  | negation (inner : Value)
  /-- A name that stands for a number. -/
  | var (name : String)
  /-- An operator applied to operands. -/
  | node (op : Operator) (operands : List Value)
deriving Inhabited

namespace Value

instance : Term Value where
  node := node
  node? v := match v with
    | node op operands => some (op, operands)
    | _ => none

@[simp] theorem term_node (op : Operator) (operands : List Value) :
    Term.node op operands = node op operands := rfl

@[simp] theorem term_node?_node (op : Operator) (operands : List Value) :
    Term.node? (node op operands) = some (op, operands) := rfl

instance : LawfulTerm Value where
  node?_node _ _ := rfl
  node_of_node? v op operands h := by
    cases v <;> simp_all [Term.node?, Term.node]

/-- The kind of a value. -/
def kind : Value → Kind
  | integer _ => .integer
  | real _ => .real
  | rational _ => .rational
  | negation _ => .negation
  | var _ => .var
  | node _ _ => .expression

/-- An exact number as a value. -/
def ofExact : Exact → Value
  | .integer n => integer n
  | .rational q => rational q

/-- The exact number that a value is. -/
def asExact? : Value → Option Exact
  | integer n => some (.integer n)
  | rational q => some (.rational q)
  | _ => none

/-- The opposite of a value. -/
def negate : Value → Except ArithmeticError Value
  | integer n => (narrow (-n)).map integer
  | real x => .ok (real (-x))
  | rational q => q.neg.map rational
  | negation inner => .ok inner
  | v => .ok (negation v)

mutual

/-- Whether two values are equal. Real numbers compare as numbers do, so no value that holds the
real that is not a number equals itself. -/
def same : Value → Value → Bool
  | integer a, integer b => a == b
  | real a, real b => a == b
  | rational a, rational b => a == b
  | negation a, negation b => same a b
  | var a, var b => a == b
  | node op operands, node op' operands' => op == op' && sameAll operands operands'
  | _, _ => false

/-- Whether two lists of values are equal, item by item. -/
def sameAll : List Value → List Value → Bool
  | [], [] => true
  | a :: rest, b :: rest' => same a b && sameAll rest rest'
  | _, _ => false

end

end Value

end Precedence
