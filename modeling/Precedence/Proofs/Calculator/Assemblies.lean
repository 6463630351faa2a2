import Precedence.Proofs.Calculator.Canonical
import Precedence.Proofs.Value.Assignments

/-!
# Values made by hand

Not only parses make values. `Value.IsAssembled` are the values that are made of integers, fractions
in lowest terms and names by minus signs and by the five operators. They have the shape of what
`algebra` makes (`Value.IsFlat`), but for fractions, which may stand wherever an integer does.

A fraction is written as a quotient without parentheses. So it may be torn apart by what stands next
to it: by a division in front of it, and by a power behind it. `Value.IsFirm` says that this occurs
nowhere in a value.

* `IsAssembled.isFlat`: the shape of values made by hand.
* `IsFirm.of_combine`: the operands of a value in which nothing is torn are such values.
-/

namespace Precedence

open Precedence.Number Calculator

namespace Value

/-- A value that is made by hand. -/
inductive IsAssembled : Value → Prop where
  | integer {n : Int} (h : Fits n) : IsAssembled (integer n)
  | rational {q : Rational} (h : q.IsReduced) : IsAssembled (rational q)
  | var {name : String} (h : IsName name) : IsAssembled (var name)
  | negate {v w : Value} (hv : IsAssembled v) (h : v.negate = .ok w) : IsAssembled w
  | combine (op : Operation) {v w : Value} (hv : IsAssembled v) (hw : IsAssembled w) :
      IsAssembled (Term.combine op.operator v w)

/-- The shape of a value that is made by hand. -/
inductive IsFlat : Value → Prop where
  | integer {n : Int} (h : Fits n) : IsFlat (integer n)
  | rational {q : Rational} (h : q.IsReduced) : IsFlat (rational q)
  | var {name : String} (h : IsName name) : IsFlat (var name)
  | negation {v : Value} (h : IsFlat v) (hbare : v.IsBare) : IsFlat (negation v)
  | pair {op : Operation} {v w : Value} (hop : op.operator.associative = false) (hv : IsFlat v)
      (hw : IsFlat w) : IsFlat (node op.operator [v, w])
  | chain {op : Operation} {vs : List Value} (hop : op.operator.associative = true)
      (hlength : 2 ≤ vs.length) (h : ∀ v ∈ vs, IsFlat v)
      (hflat : ∀ v ∈ vs, Term.contribution op.operator v = [v]) : IsFlat (node op.operator vs)

variable {op : Operation} {tag : Operator} {u v w : Value} {vs : List Value}

/-! ## Shapes -/

namespace IsFlat

theorem exists_operator (h : IsFlat (node tag vs)) : ∃ op : Operation, tag = op.operator := by
  cases h with
  | pair => exact ⟨_, rfl⟩
  | chain => exact ⟨_, rfl⟩

/-- Sums and products have flat operands. -/
theorem keepsFlat (hop : op.operator.associative = true) : KeepsFlat op.operator IsFlat where
  tag_eq tag vs h hkind := by
    obtain ⟨op', rfl⟩ := h.exists_operator
    rw [Operation.sameKind_operator.mp hkind]
  ne_nil vs h := by
    generalize htag : op.operator = tag at h
    cases h with
    | pair => exact List.cons_ne_nil _ _
    | chain _ hlength => exact List.length_pos_iff.mp (by omega)
  operand vs h := by
    generalize htag : op.operator = tag at h hop ⊢
    cases h with
    | pair hnot => exact absurd (hnot.symm.trans hop) Bool.false_ne_true
    | chain _ _ hall hflat => exact fun u hu => ⟨hall u hu, hflat u hu⟩

theorem combine_eq_node (hv : IsFlat v) (hop : op.operator.associative = true) (w : Value) :
    Term.combine op.operator v w = node op.operator
      (Term.contribution op.operator v ++ Term.contribution op.operator w) :=
  (keepsFlat hop).combine_eq_node hop hv w

theorem combine (op : Operation) (hv : IsFlat v) (hw : IsFlat w) :
    IsFlat (Term.combine op.operator v w) := by
  by_cases hop : op.operator.associative = true
  · obtain ⟨hlength, hflat⟩ := (keepsFlat hop).flat hv hw
    rw [hv.combine_eq_node hop]
    exact .chain hop hlength (fun u hu => (hflat u hu).1) fun u hu => (hflat u hu).2
  · rw [Bool.not_eq_true] at hop
    rw [Term.combine_of_not_associative hop]
    exact .pair hop hv hw

theorem negate (h : IsFlat v) (hw : v.negate = .ok w) : IsFlat w := by
  cases h with
  | integer hn =>
    obtain ⟨hn', rfl⟩ := negate_integer_eq_ok hw
    exact .integer hn'
  | @rational q hq =>
    rw [Value.negate] at hw
    cases hneg : q.neg with
    | error e =>
      rw [hneg] at hw
      cases hw
    | ok p =>
      rw [hneg] at hw
      cases hw
      exact .rational (Rational.isReduced_of_reduce hneg)
  | var hname =>
    cases hw
    exact .negation (.var hname) trivial
  | negation h hbare =>
    cases hw
    exact h
  | pair hop hv hu =>
    cases hw
    exact .negation (.pair hop hv hu) trivial
  | chain hop hlength hvs hflat =>
    cases hw
    exact .negation (.chain hop hlength hvs hflat) trivial

end IsFlat

/-- **What is made by hand is flat.** -/
theorem IsAssembled.isFlat (h : IsAssembled v) : IsFlat v := by
  induction h with
  | integer hn => exact .integer hn
  | rational hq => exact .rational hq
  | var hname => exact .var hname
  | negate _ hw ih => exact ih.negate hw
  | combine op _ _ ihv ihw => exact ihv.combine op ihw

/-! ## Fractions that are torn apart -/

/-- The text of the value ends in a divisor of its own: that of a fraction, or of a power of a
fraction that begins with no sign. -/
def EndsInDivisor : Value → Prop
  | rational q => q.denom ≠ 1
  | node op [rational q, _] => op = Operation.power.operator ∧ 0 ≤ q.numer ∧ q.denom ≠ 1
  | _ => False

/-- The value is a fraction that begins with no sign, and a power of it is not that of its
denominator alone. -/
def IsLooseBase : Value → Prop
  | rational q => 0 ≤ q.numer ∧ q.numer ≠ 1
  | _ => False

/-- Nowhere in the value a fraction is torn apart: what another value is divided by does not end in
a divisor of its own, and what is raised to a power is no fraction that a power tears apart. -/
structure IsFirm (v : Value) : Prop where
  divisor : ∀ a b, Occurs (node Operation.divide.operator [a, b]) v → ¬ b.EndsInDivisor
  base : ∀ a b, Occurs (node Operation.power.operator [a, b]) v → ¬ a.IsLooseBase

theorem isFirm_leaf (h : v.isNode = false) (hbare : ∀ w, v ≠ negation w) : v.IsFirm := by
  have hnone : ∀ tag vs, ¬ Occurs (node tag vs) v := by
    intro tag vs hocc
    cases hocc with
    | here => cases h
    | negation _ => exact hbare _ rfl
    | operand _ _ => cases h
  exact ⟨fun _ _ hocc => absurd hocc (hnone _ _), fun _ _ hocc => absurd hocc (hnone _ _)⟩

@[simp] theorem isFirm_integer (n : Int) : (integer n).IsFirm :=
  isFirm_leaf rfl fun _ h => by cases h

@[simp] theorem isFirm_rational (q : Rational) : (rational q).IsFirm :=
  isFirm_leaf rfl fun _ h => by cases h

@[simp] theorem isFirm_var (name : String) : (var name).IsFirm :=
  isFirm_leaf rfl fun _ h => by cases h

/-- Nothing is torn apart in a node if nothing is in its operands, and no operand is. -/
theorem isFirm_node (h : ∀ v ∈ vs, v.IsFirm)
    (hdivisor : ∀ a b, node tag vs = node Operation.divide.operator [a, b] → ¬ b.EndsInDivisor)
    (hbase : ∀ a b, node tag vs = node Operation.power.operator [a, b] → ¬ a.IsLooseBase) :
    (node tag vs).IsFirm where
  divisor a b hocc := by
    cases hocc with
    | here => exact hdivisor a b rfl
    | operand hmem hocc => exact (h _ hmem).divisor a b hocc
  base a b hocc := by
    cases hocc with
    | here => exact hbase a b rfl
    | operand hmem hocc => exact (h _ hmem).base a b hocc

theorem exists_occurs_contribution (hu : Term.contribution tag u = [u]) (h : Occurs u v) :
    ∃ c ∈ Term.contribution tag v, Occurs u c := by
  rcases contribution_cases tag v with ⟨inner, operands, rfl, -, hoperands⟩ | hself
  · cases h with
    | here => exact ⟨_, by rw [hu]; exact List.mem_singleton_self _, .here⟩
    | operand hmem hocc => exact ⟨_, by rw [hoperands]; exact hmem, hocc⟩
  · exact ⟨v, by rw [hself]; exact List.mem_singleton_self v, h⟩

/-- What occurs in an operand occurs in the combination, if it is not dissolved there. -/
theorem Occurs.combine (hu : tag.associative = true → Term.contribution tag u = [u])
    (h : Occurs u v ∨ Occurs u w) : Occurs u (Term.combine tag v w) := by
  by_cases htag : tag.associative = true
  · have hc : ∃ c ∈ Term.contribution tag v ++ Term.contribution tag w, Occurs u c := by
      rcases h with h | h
      · obtain ⟨c, hc, hocc⟩ := exists_occurs_contribution (hu htag) h
        exact ⟨c, List.mem_append_left _ hc, hocc⟩
      · obtain ⟨c, hc, hocc⟩ := exists_occurs_contribution (hu htag) h
        exact ⟨c, List.mem_append_right _ hc, hocc⟩
    obtain ⟨c, hc, hocc⟩ := hc
    rw [combine_eq htag]
    exact .operand hc hocc
  · rw [Bool.not_eq_true] at htag
    rw [Term.combine_of_not_associative htag]
    rcases h with h | h
    · exact .operand List.mem_cons_self h
    · exact .operand (List.mem_cons_of_mem v List.mem_cons_self) h

/-- A node that is no sum and no product is not dissolved. -/
theorem contribution_node_of_ne {op' : Operation} (hop : op'.operator.associative = false)
    (vs : List Value) (h : op.operator.associative = true) :
    Term.contribution op.operator (node op'.operator vs) = [node op'.operator vs] := by
  refine contribution_of_ne ?_
  rintro _ _ ⟨⟩
  refine Bool.eq_false_iff.mpr fun hkind => ?_
  rw [Operation.sameKind_operator.mp hkind, h] at hop
  cases hop

/-- The operands of a firm value are firm. -/
theorem IsFirm.of_combine (h : (Term.combine op.operator v w).IsFirm) : v.IsFirm ∧ w.IsFirm := by
  have hdivisor : ∀ a b, Occurs (node Operation.divide.operator [a, b]) v ∨
      Occurs (node Operation.divide.operator [a, b]) w → ¬ b.EndsInDivisor := fun a b hocc =>
    h.divisor a b (.combine (contribution_node_of_ne rfl [a, b]) hocc)
  have hbase : ∀ a b, Occurs (node Operation.power.operator [a, b]) v ∨
      Occurs (node Operation.power.operator [a, b]) w → ¬ a.IsLooseBase := fun a b hocc =>
    h.base a b (.combine (contribution_node_of_ne rfl [a, b]) hocc)
  exact ⟨⟨fun a b hocc => hdivisor a b (.inl hocc), fun a b hocc => hbase a b (.inl hocc)⟩,
    ⟨fun a b hocc => hdivisor a b (.inr hocc), fun a b hocc => hbase a b (.inr hocc)⟩⟩

theorem IsFirm.of_negation (h : (negation v).IsFirm) : v.IsFirm :=
  ⟨fun a b hocc => h.divisor a b (.negation hocc), fun a b hocc => h.base a b (.negation hocc)⟩

end Value

end Precedence
