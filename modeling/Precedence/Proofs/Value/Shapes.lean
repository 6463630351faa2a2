import Precedence.Value.Literal
import Precedence.Proofs.Value.Flattening

/-!
# Shapes of symbolic values

A parse that keeps operations makes no fractions, and negates nothing but names and nodes: a number
has an opposite of its own, and a second negation takes off the first one.
-/

namespace Precedence

namespace Value

open Precedence.Number

/-- A name or an operator node. -/
def IsBare : Value → Prop
  | var _ => True
  | node _ _ => True
  | _ => False

/-- The value is no fraction, and no negation of a number or of a negation. -/
def IsSymbolic : Value → Prop
  | rational _ => False
  | negation inner => inner.IsBare
  | _ => True

theorem IsBare.isSymbolic {v : Value} (h : v.IsBare) : v.IsSymbolic := by
  cases v with
  | var name => trivial
  | node op operands => trivial
  | integer _ | real _ | rational _ | negation _ => exact h.elim

theorem negate_of_isBare {v : Value} (h : v.IsBare) : v.negate = .ok (negation v) := by
  cases v with
  | var name => rfl
  | node op operands => rfl
  | integer _ | real _ | rational _ | negation _ => exact h.elim

theorem negate_integer {n : Int} (h : Fits (-n)) : (integer n).negate = .ok (integer (-n)) := by
  simp [negate, narrow, narrow?_of_fits h, Except.map]

theorem negate_integer_eq_ok {n : Int} {w : Value} (h : (integer n).negate = .ok w) :
    Fits (-n) ∧ w = integer (-n) := by
  by_cases hn : Fits (-n)
  · rw [negate_integer hn] at h
    cases h
    exact ⟨hn, rfl⟩
  · simp [negate, narrow, narrow?, hn, Except.map] at h

/-- The opposite of a symbolic value is symbolic. -/
theorem IsSymbolic.negate {v w : Value} (h : v.IsSymbolic) (hw : v.negate = .ok w) :
    w.IsSymbolic := by
  cases v with
  | integer n =>
    obtain ⟨-, rfl⟩ := negate_integer_eq_ok hw
    trivial
  | real x =>
    cases hw
    trivial
  | rational q => exact h.elim
  | negation inner =>
    cases hw
    exact IsBare.isSymbolic h
  | var name =>
    cases hw
    trivial
  | node op operands =>
    cases hw
    trivial

/-- A number literal is a real number if it has a point or an exponent, and else an integer. -/
theorem readNumber_cases {text : String} {v : Value} (h : readNumber text = .ok v) :
    (isRealLiteral text.toList = true ∧ ∃ x, v = real x) ∨
      (isRealLiteral text.toList = false ∧ ∃ n, readInteger text = .ok n ∧ v = integer n) := by
  unfold readNumber at h
  split at h
  · rename_i hreal
    split at h
    · cases h
      exact .inl ⟨hreal, _, rfl⟩
    · cases h
  · rename_i hreal
    split at h
    · rename_i n hn
      cases h
      exact .inr ⟨Bool.eq_false_iff.mpr hreal, n, hn, rfl⟩
    · cases h

/-- A number literal is an integer or a real number. -/
theorem readNumber_eq_ok {text : String} {v : Value} (h : readNumber text = .ok v) :
    (∃ n, readInteger text = .ok n ∧ v = integer n) ∨ ∃ x, v = real x :=
  (readNumber_cases h).symm.imp And.right And.right

/-- What an operation keeps is a node. -/
theorem isBare_combine (op : Operator) (left right : Value) :
    (Term.combine op left right).IsBare := by
  unfold Term.combine
  split
  · split
    · split <;> exact trivial
    · exact trivial
  · exact trivial

end Value

end Precedence
