/-!
# Operators

What a node of an expression tree knows of the operator that built it: its symbol, its binding
power, where it stands relative to its operands, how chains of equal power group, and two
algebraic flags. Of the flags only `associative` matters to a parse.
-/

namespace Precedence

/-- Where an operator stands relative to its operands. -/
inductive Fixity where
  /-- Before its operand. -/
  | prefixOp
  /-- Between its operands. -/
  | infixOp
  /-- Behind its operand. -/
  | postfixOp
deriving DecidableEq, Inhabited

namespace Fixity

/-- All fixities, in their fixed order. -/
def all : List Fixity :=
  [prefixOp, infixOp, postfixOp]

/-- The place of a fixity in the fixed order. -/
def index : Fixity → Nat
  | prefixOp => 0
  | infixOp => 1
  | postfixOp => 2

/-- The name of a fixity. -/
def name : Fixity → String
  | prefixOp => "prefix"
  | infixOp => "infix"
  | postfixOp => "postfix"

/-- The fixity of a name. -/
def ofName? (text : String) : Option Fixity :=
  all.find? (·.name == text)

theorem mem_all (f : Fixity) : f ∈ all := by
  cases f <;> decide

theorem ofName?_name (f : Fixity) : ofName? f.name = some f := by
  cases f <;> decide

end Fixity

/-- How a chain of operators of equal power groups. -/
inductive Grouping where
  /-- Not at all: the operator has one operand. -/
  | none
  /-- From the left. -/
  | left
  /-- From the right. -/
  | right
deriving DecidableEq, Inhabited

namespace Grouping

/-- All groupings, in their fixed order. -/
def all : List Grouping :=
  [none, left, right]

/-- The place of a grouping in the fixed order. -/
def index : Grouping → Nat
  | none => 0
  | left => 1
  | right => 2

/-- The name of a grouping. -/
def name : Grouping → String
  | none => "none"
  | left => "left"
  | right => "right"

/-- The grouping of a name. -/
def ofName? (text : String) : Option Grouping :=
  all.find? (·.name == text)

theorem mem_all (g : Grouping) : g ∈ all := by
  cases g <;> decide

theorem ofName?_name (g : Grouping) : ofName? g.name = some g := by
  cases g <;> decide

end Grouping

/-- Why a name describes no operator. -/
inductive OperatorError where
  | unknownFixity (text : String)
  | unknownGrouping (text : String)
deriving DecidableEq

namespace OperatorError

/-- The error in words. -/
def message : OperatorError → String
  | unknownFixity text => "invalid fixity: " ++ text
  | unknownGrouping text => "invalid associativity: " ++ text

end OperatorError

/-- Reads the name of a fixity. -/
def Fixity.read (text : String) : Except OperatorError Fixity :=
  match ofName? text with
  | some f => .ok f
  | none => .error (.unknownFixity text)

/-- Reads the name of a grouping. -/
def Grouping.read (text : String) : Except OperatorError Grouping :=
  match ofName? text with
  | some g => .ok g
  | Option.none => .error (.unknownGrouping text)

/-- An operator as the nodes that it builds are tagged with it. -/
structure Operator where
  symbol : String
  power : Nat
  fixity : Fixity
  grouping : Grouping
  /-- Nested uses of the operator flatten into one node. -/
  associative : Bool
  /-- The operands may change places. -/
  commutative : Bool
deriving DecidableEq, Inhabited

namespace Operator

/-- An operator before its operand. -/
def before (symbol : String) (power : Nat) : Operator where
  symbol := symbol
  power := power
  fixity := .prefixOp
  grouping := .none
  associative := false
  commutative := false

/-- An operator behind its operand. -/
def after (symbol : String) (power : Nat) : Operator where
  symbol := symbol
  power := power
  fixity := .postfixOp
  grouping := .none
  associative := false
  commutative := false

/-- An operator between two operands. -/
def between (symbol : String) (power : Nat) (grouping : Grouping) : Operator where
  symbol := symbol
  power := power
  fixity := .infixOp
  grouping := grouping
  associative := false
  commutative := false

/-- The operator with other algebraic flags. -/
def withFlags (op : Operator) (associative commutative : Bool) : Operator :=
  { op with associative := associative, commutative := commutative }

/-- The power at which the right operand is parsed: one lower for an operator that groups from the
right, so that an equal operator further right belongs to the operand. -/
def rightPower (op : Operator) : Nat :=
  match op.grouping with
  | .right => op.power - 1
  | .none | .left => op.power

/-- Whether two operators build nodes of one kind: they share the symbol and its place. -/
def sameKind (a b : Operator) : Bool :=
  a.symbol == b.symbol && a.fixity == b.fixity

/-- The operator in words. -/
def describe (op : Operator) : String :=
  op.fixity.name ++ " " ++ op.grouping.name ++ " " ++ op.symbol ++ " (" ++ toString op.power ++ ")"

/-- The description with the two algebraic flags. -/
def describeFlags (op : Operator) : String :=
  op.describe ++ " " ++ (if op.associative then "A" else "-") ++
    (if op.commutative then "C" else "-")

end Operator

end Precedence
