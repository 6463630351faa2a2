import Precedence.Operator

/-!
# Terms

A type of terms is a type of values that can hold operator nodes. `combine` applies an operator
with two operands; for an associative operator it flattens, so that a node of the same kind gives
its own operands to the new node instead of becoming one of them.
-/

namespace Precedence

/-- A type whose values may be operators applied to operands. -/
class Term (V : Type) where
  /-- The operator applied to the operands. -/
  node : Operator → List V → V
  /-- The operator and the operands of a node. -/
  node? : V → Option (Operator × List V)

/-- A type of terms in which the nodes are exactly what `node` builds. -/
class LawfulTerm (V : Type) [Term V] : Prop where
  node?_node : ∀ (op : Operator) (operands : List V),
    Term.node? (Term.node op operands) = some (op, operands)
  node_of_node? : ∀ (v : V) (op : Operator) (operands : List V),
    Term.node? v = some (op, operands) → v = Term.node op operands

namespace Term

variable {V : Type} [Term V]

/-- What a value gives to a node of an associative operator: the operands of a node of the same
kind, any other value itself. -/
def contribution (op : Operator) (v : V) : List V :=
  match node? v with
  | some (inner, operands) => if inner.sameKind op then operands else [v]
  | none => [v]

/-- An operator with one operand applied to it. -/
def unary (op : Operator) (operand : V) : V :=
  node op [operand]

/-- An operator with two operands applied to them. A left operand of the same kind keeps its own
operator as the tag of the flattened node. -/
def combine (op : Operator) (left right : V) : V :=
  if op.associative then
    match node? left with
    | some (inner, operands) =>
      if inner.sameKind op then node inner (operands ++ contribution op right)
      else node op (left :: contribution op right)
    | none => node op (left :: contribution op right)
  else node op [left, right]

theorem combine_of_not_associative {op : Operator} (h : op.associative = false) (left right : V) :
    combine op left right = node op [left, right] := by
  simp [combine, h]

end Term

end Precedence
