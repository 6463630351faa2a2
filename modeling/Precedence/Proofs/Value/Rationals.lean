import Mathlib.Algebra.BigOperators.Group.List.Basic
import Precedence.Proofs.Exact.Numbers
import Precedence.Proofs.Calculator.Tables
import Precedence.Proofs.Value.Flattening

/-!
# The rational number of a symbolic value

`Value.rational?` reads a value over rational numbers without bounds: a negation is an opposite,
sums and products have any number of operands, differences and quotients two, and powers an integer
as exponent. A value may have none, because of a name in it, a real number, or a division by zero.

* `rational?_combine`: to keep an operation is to put it off. The value that keeps it stands for
  the result of the operation on the numbers of the operands.
* `exists_of_rational?_combine`: it has a number only if both operands have one.
-/

namespace Precedence

namespace Operator

/-- A power with an integer as exponent. -/
def powerOf? (x y : ℚ) : Option ℚ :=
  if y.den = 1 ∧ (y < 0 → x ≠ 0) then some (x ^ y.num) else none

/-- What an operator between operands gives for the numbers of its operands. -/
def onRationals? (op : Operator) (xs : List ℚ) : Option ℚ :=
  if op.fixity ≠ .infixOp then none
  else if op.symbol = "+" then some xs.sum
  else if op.symbol = "*" then some xs.prod
  else match xs with
    | [x, y] =>
      if op.symbol = "-" then some (x - y)
      else if op.symbol = "/" then (if y = 0 then none else some (x / y))
      else if op.symbol = "^" then powerOf? x y
      else none
    | _ => none

end Operator

namespace Operation

/-- What an operation gives for two numbers, if they have a result. -/
def onRationals? : Operation → ℚ → ℚ → Option ℚ
  | .add, x, y => some (x + y)
  | .subtract, x, y => some (x - y)
  | .multiply, x, y => some (x * y)
  | .divide, x, y => if y = 0 then none else some (x / y)
  | .power, x, y => Operator.powerOf? x y

end Operation

namespace Value

mutual

/-- The rational number that a value stands for. -/
def rational? : Value → Option ℚ
  | integer n => some n
  | real _ => none
  | rational q => if q.denom = 0 then none else some q.toRat
  | negation inner => (rational? inner).map (- ·)
  | var _ => none
  | node op operands => (rationals? operands).bind op.onRationals?

/-- The numbers of operands. -/
def rationals? : List Value → Option (List ℚ)
  | [] => some []
  | v :: rest => (rational? v).bind fun x => (rationals? rest).map (x :: ·)

end

variable {op : Operator} {v w : Value} {vs ws : List Value} {x y : ℚ} {xs ys : List ℚ}

theorem rationals?_append (hv : rationals? vs = some xs) (hw : rationals? ws = some ys) :
    rationals? (vs ++ ws) = some (xs ++ ys) := by
  induction vs generalizing xs with
  | nil =>
    cases hv
    exact hw
  | cons v vs ih =>
    rw [rationals?] at hv
    obtain ⟨x, hx, hv⟩ := Option.bind_eq_some_iff.mp hv
    obtain ⟨xs', hxs, rfl⟩ := Option.map_eq_some_iff.mp hv
    rw [List.cons_append, rationals?, hx, ih hxs]
    rfl

theorem rationals?_singleton (hv : v.rational? = some x) : rationals? [v] = some [x] := by
  simp [rationals?, hv]

/-! ## Operations that are kept -/

/-- For the operator every number of operands is folded into one number. -/
structure Folds (op : Operator) (fold : List ℚ → ℚ) (f : ℚ → ℚ → ℚ) : Prop where
  associative : op.associative = true
  onRationals? : ∀ (tag : Operator) (xs : List ℚ), tag.sameKind op = true →
    tag.onRationals? xs = some (fold xs)
  append : ∀ xs ys, fold (xs ++ ys) = f (fold xs) (fold ys)
  singleton : ∀ x, fold [x] = x

theorem folds_add : Folds Operation.add.operator List.sum (· + ·) where
  associative := rfl
  onRationals? := by
    intro tag xs h
    obtain ⟨hs, hf⟩ := Operator.sameKind_iff.mp h
    simp [Operator.onRationals?, hs, hf, Operation.operator, Operator.between,
      Operator.withFlags]
  append xs ys := List.sum_append
  singleton x := List.sum_singleton

theorem folds_multiply : Folds Operation.multiply.operator List.prod (· * ·) where
  associative := rfl
  onRationals? := by
    intro tag xs h
    obtain ⟨hs, hf⟩ := Operator.sameKind_iff.mp h
    simp [Operator.onRationals?, hs, hf, Operation.operator, Operator.between,
      Operator.withFlags]
  append xs ys := List.prod_append
  singleton x := List.prod_singleton

variable {fold : List ℚ → ℚ} {f : ℚ → ℚ → ℚ}

/-- What a value contributes stands for the number of the value. -/
theorem rationals?_contribution (hop : Folds op fold f) (hv : v.rational? = some x) :
    ∃ xs, rationals? (Term.contribution op v) = some xs ∧ fold xs = x := by
  rcases contribution_cases op v with ⟨tag, operands, rfl, hk, hoperands⟩ | hself
  · rw [rational?] at hv
    obtain ⟨xs, hxs, hx⟩ := Option.bind_eq_some_iff.mp hv
    rw [hop.onRationals? tag xs hk] at hx
    rw [hoperands]
    exact ⟨xs, hxs, Option.some.inj hx⟩
  · rw [hself]
    exact ⟨[x], rationals?_singleton hv, hop.singleton x⟩

theorem rational?_combine_of_folds (hop : Folds op fold f) (hv : v.rational? = some x)
    (hw : w.rational? = some y) : (Term.combine op v w).rational? = some (f x y) := by
  obtain ⟨tag, hk, -, hnode⟩ := combine_eq_node hop.associative v w
  obtain ⟨xs, hxs, rfl⟩ := rationals?_contribution hop hv
  obtain ⟨ys, hys, rfl⟩ := rationals?_contribution hop hw
  rw [hnode, rational?, rationals?_append hxs hys, Option.bind_some, hop.onRationals? _ _ hk,
    hop.append]

theorem rational?_combine_of_not_associative (h : op.associative = false)
    (hv : v.rational? = some x) (hw : w.rational? = some y) :
    (Term.combine op v w).rational? = op.onRationals? [x, y] := by
  rw [Term.combine_of_not_associative h]
  simp [rational?, rationals?, hv, hw]

/-- **An operation that is kept stands for its result.** -/
theorem rational?_combine (op : Operation) (hv : v.rational? = some x)
    (hw : w.rational? = some y) :
    (Term.combine op.operator v w).rational? = op.onRationals? x y := by
  cases op with
  | add => exact rational?_combine_of_folds folds_add hv hw
  | multiply => exact rational?_combine_of_folds folds_multiply hv hw
  | subtract => exact rational?_combine_of_not_associative rfl hv hw
  | divide => exact rational?_combine_of_not_associative rfl hv hw
  | power => exact rational?_combine_of_not_associative rfl hv hw

/-! ## Operands of operations that are kept -/

theorem exists_of_rationals?_append {zs : List ℚ} (h : rationals? (vs ++ ws) = some zs) :
    ∃ xs ys, rationals? vs = some xs ∧ rationals? ws = some ys := by
  induction vs generalizing zs with
  | nil => exact ⟨[], zs, rfl, h⟩
  | cons v vs ih =>
    rw [List.cons_append, rationals?] at h
    obtain ⟨x, hx, h⟩ := Option.bind_eq_some_iff.mp h
    obtain ⟨zs', hrest, -⟩ := Option.map_eq_some_iff.mp h
    obtain ⟨xs, ys, hxs, hys⟩ := ih hrest
    exact ⟨x :: xs, ys, by rw [rationals?, hx, hxs]; rfl, hys⟩

/-- A value has a number if what it contributes to a node has numbers. -/
theorem exists_of_rationals?_contribution (hop : Folds op fold f)
    (h : rationals? (Term.contribution op v) = some xs) : ∃ x, v.rational? = some x := by
  rcases contribution_cases op v with ⟨tag, operands, rfl, hk, hoperands⟩ | hself
  · rw [hoperands] at h
    exact ⟨fold xs, by rw [rational?, h, Option.bind_some, hop.onRationals? tag xs hk]⟩
  · rw [hself, rationals?] at h
    obtain ⟨x, hx, -⟩ := Option.bind_eq_some_iff.mp h
    exact ⟨x, hx⟩

theorem exists_of_rational?_combine_of_folds {z : ℚ} (hop : Folds op fold f)
    (h : (Term.combine op v w).rational? = some z) :
    ∃ x y, v.rational? = some x ∧ w.rational? = some y := by
  rw [combine_eq hop.associative, rational?] at h
  obtain ⟨zs, hzs, -⟩ := Option.bind_eq_some_iff.mp h
  obtain ⟨xs, ys, hxs, hys⟩ := exists_of_rationals?_append hzs
  obtain ⟨x, hx⟩ := exists_of_rationals?_contribution hop hxs
  obtain ⟨y, hy⟩ := exists_of_rationals?_contribution hop hys
  exact ⟨x, y, hx, hy⟩

theorem exists_of_rational?_combine_of_not_associative {z : ℚ} (hop : op.associative = false)
    (h : (Term.combine op v w).rational? = some z) :
    ∃ x y, v.rational? = some x ∧ w.rational? = some y := by
  rw [Term.combine_of_not_associative hop, term_node, rational?] at h
  obtain ⟨zs, hzs, -⟩ := Option.bind_eq_some_iff.mp h
  obtain ⟨x, hx, hrest⟩ := Option.bind_eq_some_iff.mp hzs
  obtain ⟨ys, hys, -⟩ := Option.map_eq_some_iff.mp hrest
  obtain ⟨y, hy, -⟩ := Option.bind_eq_some_iff.mp hys
  exact ⟨x, y, hx, hy⟩

/-- **Where an operation that is kept has a number, its operands have numbers** with that result. -/
theorem exists_of_rational?_combine (op : Operation) {z : ℚ}
    (h : (Term.combine op.operator v w).rational? = some z) :
    ∃ x y, v.rational? = some x ∧ w.rational? = some y ∧ op.onRationals? x y = some z := by
  obtain ⟨x, y, hx, hy⟩ : ∃ x y, v.rational? = some x ∧ w.rational? = some y := by
    cases op with
    | add => exact exists_of_rational?_combine_of_folds folds_add h
    | multiply => exact exists_of_rational?_combine_of_folds folds_multiply h
    | subtract | divide | power => exact exists_of_rational?_combine_of_not_associative rfl h
  exact ⟨x, y, hx, hy, (rational?_combine op hx hy).symm.trans h⟩

end Value

end Precedence
