import Precedence.Proofs.Value.Shapes

/-!
# Leaves and applications

What a value is made of: the names and numbers at its leaves, from left to right and without their
signs, and how often its operators are applied. A node with `n` operands stands for `n - 1`
applications of its operator between two operands.

* `leaves_combine`, `leaves_negate`: an operation puts the leaves of its sides behind each other, and
  a minus sign keeps them.
* `applications_combine`, `applications_negate`: an operation is one more application, and a minus
  sign is none.
-/

namespace Precedence

open Precedence.Number

/-- What a leaf of a value is, apart from its sign. -/
inductive Leaf where
  | name (text : String)
  | integer (magnitude : Nat)
  /-- A real number or a fraction. -/
  | other
deriving DecidableEq

namespace Value

mutual

/-- The leaves of a value, from left to right. -/
def leaves : Value → List Leaf
  | integer n => [.integer n.natAbs]
  | real _ | rational _ => [.other]
  | negation inner => leaves inner
  | var name => [.name name]
  | node _ operands => leavesIn operands

/-- The leaves of values, from left to right. -/
def leavesIn : List Value → List Leaf
  | [] => []
  | v :: rest => leaves v ++ leavesIn rest

end

mutual

/-- How often the operators that count are applied between two operands. -/
def applications (counts : Operator → Bool) : Value → Nat
  | integer _ | real _ | rational _ | var _ => 0
  | negation inner => applications counts inner
  | node op operands =>
    (if counts op then operands.length - 1 else 0) + applicationsIn counts operands

/-- How often the operators that count are applied inside of values. -/
def applicationsIn (counts : Operator → Bool) : List Value → Nat
  | [] => 0
  | v :: rest => applications counts v + applicationsIn counts rest

end

variable {op : Operator} {v w : Value} {counts : Operator → Bool}

theorem negate_rational_eq_ok {q : Rational} (h : (rational q).negate = .ok w) :
    ∃ q', w = rational q' := by
  rw [negate] at h
  cases hq : q.neg with
  | error e =>
    rw [hq] at h
    cases h
  | ok q' =>
    rw [hq] at h
    cases h
    exact ⟨q', rfl⟩

/-! ## Leaves -/

theorem leavesIn_append (vs ws : List Value) :
    leavesIn (vs ++ ws) = leavesIn vs ++ leavesIn ws := by
  induction vs with
  | nil => rfl
  | cons v vs ih => rw [List.cons_append, leavesIn, leavesIn, ih, List.append_assoc]

theorem leavesIn_singleton (v : Value) : leavesIn [v] = leaves v := by
  rw [leavesIn, leavesIn, List.append_nil]

/-- What a value gives to a node has the leaves of the value. -/
theorem leavesIn_contribution (op : Operator) (v : Value) :
    leavesIn (Term.contribution op v) = leaves v := by
  rcases contribution_cases op v with ⟨inner, operands, rfl, -, hoperands⟩ | hself
  · rw [hoperands, leaves]
  · rw [hself, leavesIn_singleton]

/-- **No leaf is lost, doubled or moved** when an operator is applied, whether it flattens or not. -/
theorem leaves_combine (op : Operator) (v w : Value) :
    leaves (Term.combine op v w) = leaves v ++ leaves w := by
  by_cases h : op.associative = true
  · rw [combine_eq h, leaves, leavesIn_append, leavesIn_contribution, leavesIn_contribution]
  · rw [Term.combine_of_not_associative (Bool.eq_false_iff.mpr h), term_node, leaves, leavesIn,
      leavesIn_singleton]

/-- A minus sign keeps the leaves. -/
theorem leaves_negate (h : v.negate = .ok w) : leaves w = leaves v := by
  cases v with
  | integer n =>
    obtain ⟨-, rfl⟩ := negate_integer_eq_ok h
    rw [leaves, leaves, Int.natAbs_neg]
  | rational q =>
    obtain ⟨q', rfl⟩ := negate_rational_eq_ok h
    rfl
  | real _ | negation _ | var _ | node _ _ =>
    cases h
    rfl

/-! ## Applications -/

theorem applicationsIn_append (vs ws : List Value) :
    applicationsIn counts (vs ++ ws) = applicationsIn counts vs + applicationsIn counts ws := by
  induction vs with
  | nil => rw [List.nil_append, applicationsIn, Nat.zero_add]
  | cons v vs ih => rw [List.cons_append, applicationsIn, applicationsIn, ih, Nat.add_assoc]

theorem applicationsIn_singleton (v : Value) :
    applicationsIn counts [v] = applications counts v := rfl

/-- What a value gives to a node of an operator is applied as often as in the value, if what counts
is the kind of the operator. -/
theorem applications_eq (hkind : ∀ inner, inner.sameKind op = true → counts inner = counts op)
    (v : Value) : applications counts v =
      (if counts op then (Term.contribution op v).length - 1 else 0) +
        applicationsIn counts (Term.contribution op v) := by
  rcases contribution_cases op v with ⟨inner, operands, rfl, hk, hoperands⟩ | hself
  · rw [hoperands, applications, hkind inner hk]
  · rw [hself, applicationsIn_singleton, List.length_singleton, Nat.sub_self, ite_self,
      Nat.zero_add]

/-- **An operation is one more application** of its operator, if both sides have something to give
to it. -/
theorem applications_combine
    (hkind : ∀ inner, inner.sameKind op = true → counts inner = counts op)
    (h : op.associative = true → Term.contribution op v ≠ [] ∧ Term.contribution op w ≠ []) :
    applications counts (Term.combine op v w) =
      applications counts v + applications counts w + if counts op then 1 else 0 := by
  by_cases ha : op.associative = true
  · obtain ⟨hv, hw⟩ := h ha
    have hvpos := List.length_pos_iff.mpr hv
    have hwpos := List.length_pos_iff.mpr hw
    rw [combine_eq ha, applications, hkind _ (sameKind_tag op v), applicationsIn_append,
      applications_eq hkind v, applications_eq hkind w, List.length_append]
    split <;> omega
  · rw [Term.combine_of_not_associative (Bool.eq_false_iff.mpr ha), term_node, applications,
      applicationsIn, applicationsIn_singleton]
    exact Nat.add_comm _ _

/-- A minus sign applies nothing between two operands. -/
theorem applications_negate (h : v.negate = .ok w) :
    applications counts w = applications counts v := by
  cases v with
  | integer n =>
    obtain ⟨-, rfl⟩ := negate_integer_eq_ok h
    rfl
  | rational q =>
    obtain ⟨q', rfl⟩ := negate_rational_eq_ok h
    rfl
  | real _ | negation _ | var _ | node _ _ =>
    cases h
    rfl

end Value

end Precedence
