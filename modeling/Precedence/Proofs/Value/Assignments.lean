import Precedence.Proofs.Exact.Numbers
import Precedence.Proofs.Value.Rationals

/-!
# Numbers in place of names

`Value.assign` puts a rational number in the place of each name. `Value.number?` is the exact number
that a value stands for then. An operation that is kept stands for the operation on numbers, and a
minus sign for the opposite, whatever the names stand for.

* `number?_combine`, `exists_of_number?_combine`: a value that keeps an operation has the number of
  the result, and has it only if its operands have numbers.
-/

namespace Precedence

namespace Value

mutual

/-- The value with numbers in place of its names. -/
def assign (ρ : String → ℚ) : Value → Value
  | var name => rational (.ofRat (ρ name))
  | negation inner => negation (assign ρ inner)
  | node op operands => node op (assignAll ρ operands)
  | integer n => integer n
  | real x => real x
  | rational q => rational q

/-- The values with numbers in place of their names. -/
def assignAll (ρ : String → ℚ) : List Value → List Value
  | [] => []
  | v :: rest => assign ρ v :: assignAll ρ rest

end

/-- The rational number that the value stands for when its names stand for rational numbers. -/
def number? (ρ : String → ℚ) (v : Value) : Option ℚ :=
  (v.assign ρ).rational?

variable {ρ : String → ℚ} {op : Operation} {v w : Value} {x y : ℚ}

@[simp] theorem number?_integer (n : Int) : (integer n).number? ρ = some (n : ℚ) := rfl

@[simp] theorem number?_negation (v : Value) :
    (negation v).number? ρ = (v.number? ρ).map (- ·) := rfl

@[simp] theorem number?_var (name : String) : (var name).number? ρ = some (ρ name) := by
  have hdenom : (Rational.ofRat (ρ name)).denom ≠ 0 := (Rational.denom_ofRat_pos _).ne'
  rw [number?, assign, rational?, if_neg hdenom, Rational.toRat_ofRat]

theorem number?_rational {q : Rational} (h : q.denom ≠ 0) :
    (rational q).number? ρ = some q.toRat := by
  rw [number?, assign, rational?, if_neg h]

/-! ## Operations that are kept -/

theorem assignAll_append (vs ws : List Value) :
    assignAll ρ (vs ++ ws) = assignAll ρ vs ++ assignAll ρ ws := by
  induction vs with
  | nil => rfl
  | cons v vs ih => rw [List.cons_append, assignAll, ih, assignAll, List.cons_append]

theorem contribution_assign (tag : Operator) (v : Value) :
    Term.contribution tag (v.assign ρ) = assignAll ρ (Term.contribution tag v) := by
  cases v with
  | node inner operands =>
    unfold Term.contribution
    by_cases hk : inner.sameKind tag = true <;> simp [assign, assignAll, hk]
  | integer _ | real _ | rational _ | negation _ | var _ => rfl

theorem tag_assign (op : Operator) (v : Value) : tag op (v.assign ρ) = tag op v := by
  cases v <;> rfl

/-- Numbers may be put in before an operation is kept. -/
theorem assign_combine (op : Operator) (v w : Value) :
    (Term.combine op v w).assign ρ = Term.combine op (v.assign ρ) (w.assign ρ) := by
  by_cases h : op.associative = true
  · rw [combine_eq h, combine_eq h, assign, assignAll_append, tag_assign, contribution_assign,
      contribution_assign]
  · rw [Bool.not_eq_true] at h
    rw [Term.combine_of_not_associative h, Term.combine_of_not_associative h]
    rfl

/-- **An operation that is kept has the number of its result.** -/
theorem number?_combine (op : Operation) (hv : v.number? ρ = some x) (hw : w.number? ρ = some y) :
    (Term.combine op.operator v w).number? ρ = op.onRationals? x y := by
  rw [number?, assign_combine]
  exact rational?_combine op hv hw

/-- **Where an operation that is kept has a number, its operands have numbers** with that result. -/
theorem exists_of_number?_combine (op : Operation) {z : ℚ}
    (h : (Term.combine op.operator v w).number? ρ = some z) :
    ∃ x y, v.number? ρ = some x ∧ w.number? ρ = some y ∧ op.onRationals? x y = some z := by
  rw [number?, assign_combine] at h
  exact exists_of_rational?_combine op h

end Value

end Precedence
