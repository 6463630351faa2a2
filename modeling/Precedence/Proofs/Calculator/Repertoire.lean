import Precedence.Proofs.Calculator.Spelling
import Precedence.Proofs.Value.Shapes

/-!
# Trees of any operators

The values that a grammar makes which keeps its operations, whatever operators between operands it
has. A node of an associative operator has no operand that is one of the same operator, since it
would have been flattened; other nodes have two operands. Fractions and negations of numbers or of
negations do not occur.

* `IsBuilt.combine`, `IsBuilt.negate`: operations and minus signs make such values of such values.
* `IsBuilt.power_lt`: an operand that stands without parentheses binds tighter than its node.
-/

namespace Precedence

open Precedence.Number Calculator

namespace Operator

/-- Operators between operands that are told apart by their symbols. -/
structure IsRepertoire (known : Operator → Prop) : Prop where
  fixity : ∀ op, known op → op.fixity = .infixOp
  eq_of_symbol : ∀ a b, known a → known b → a.symbol = b.symbol → a = b
  /-- Operators that flatten group from the left. -/
  rightPower : ∀ op, known op → op.associative = true → op.rightPower = op.power
  positive : ∀ op, known op → 0 < op.power

variable {known : Operator → Prop} {a b : Operator}

theorem IsRepertoire.sameKind_iff (hk : IsRepertoire known) (ha : known a) (hb : known b) :
    a.sameKind b = true ↔ a = b := by
  constructor
  · intro h
    exact hk.eq_of_symbol a b ha hb (Operator.sameKind_iff.mp h).1
  · rintro rfl
    exact sameKind_refl a

theorem power_le_rightPower (op : Operator) : op.power ≤ op.rightPower + 1 := by
  unfold rightPower
  cases op.grouping <;> simp only <;> omega

theorem rightPower_le_power (op : Operator) : op.rightPower ≤ op.power := by
  unfold rightPower
  cases op.grouping <;> simp only <;> omega

end Operator

namespace Value

open Operator (IsRepertoire)

/-- A value that is made of operands by operators of a kind. -/
inductive IsBuilt (known : Operator → Prop) : Value → Prop where
  | integer {n : Int} (h : Fits n) : IsBuilt known (integer n)
  | real (x : Float) : IsBuilt known (real x)
  | var {name : String} (h : IsName name) : IsBuilt known (var name)
  | negation {v : Value} (h : IsBuilt known v) (hbare : v.IsBare) : IsBuilt known (negation v)
  | pair {op : Operator} {v w : Value} (hop : known op) (hassociative : op.associative = false)
      (hv : IsBuilt known v) (hw : IsBuilt known w) : IsBuilt known (node op [v, w])
  | chain {op : Operator} {vs : List Value} (hop : known op) (hassociative : op.associative = true)
      (hlength : 2 ≤ vs.length) (h : ∀ v ∈ vs, IsBuilt known v)
      (hflat : ∀ v ∈ vs, Term.contribution op v = [v]) : IsBuilt known (node op vs)

namespace IsBuilt

variable {known : Operator → Prop} {op tag : Operator} {v w : Value} {vs : List Value}

/-- The tags of nodes are among the operators. -/
theorem known_tag (h : IsBuilt known (node tag vs)) : known tag := by
  cases h with
  | pair hop => exact hop
  | chain hop => exact hop

/-- Nodes of an associative operator have flat operands. -/
theorem keepsFlat (hk : IsRepertoire known) (hop : known op)
    (hassociative : op.associative = true) : KeepsFlat op (IsBuilt known) where
  tag_eq tag vs h hkind := (hk.sameKind_iff h.known_tag hop).mp hkind
  ne_nil vs h := by
    cases h with
    | pair => exact List.cons_ne_nil _ _
    | chain _ _ hlength => exact List.length_pos_iff.mp (by omega)
  operand vs h := by
    cases h with
    | pair _ hnot => exact absurd (hnot.symm.trans hassociative) Bool.false_ne_true
    | chain _ _ _ hbuilt hflat => exact fun u hu => ⟨hbuilt u hu, hflat u hu⟩

/-- What a value gives to a node of an associative operator. -/
theorem contribution (hk : IsRepertoire known) (h : IsBuilt known v) (hop : known op)
    (hassociative : op.associative = true) :
    Term.contribution op v ≠ [] ∧ ∀ u ∈ Term.contribution op v,
      IsBuilt known u ∧ Term.contribution op u = [u] :=
  (keepsFlat hk hop hassociative).contribution h

/-- A node of an associative operator is tagged with that operator. -/
theorem combine_eq_node (hk : IsRepertoire known) (hv : IsBuilt known v) (hop : known op)
    (hassociative : op.associative = true) (w : Value) :
    Term.combine op v w = node op (Term.contribution op v ++ Term.contribution op w) :=
  (keepsFlat hk hop hassociative).combine_eq_node hassociative hv w

/-- **An operation makes such a value** of such values. -/
theorem combine (hk : IsRepertoire known) (hop : known op) (hv : IsBuilt known v)
    (hw : IsBuilt known w) : IsBuilt known (Term.combine op v w) := by
  by_cases hassociative : op.associative = true
  · obtain ⟨hlength, hflat⟩ := (keepsFlat hk hop hassociative).flat hv hw
    rw [hv.combine_eq_node hk hop hassociative]
    exact .chain hop hassociative hlength (fun u hu => (hflat u hu).1) fun u hu => (hflat u hu).2
  · rw [Bool.not_eq_true] at hassociative
    rw [Term.combine_of_not_associative hassociative]
    exact .pair hop hassociative hv hw

/-- **The opposite of such a value is one.** -/
theorem negate (h : IsBuilt known v) (hw : v.negate = .ok w) : IsBuilt known w := by
  cases h with
  | integer hn =>
    obtain ⟨hn', rfl⟩ := negate_integer_eq_ok hw
    exact .integer hn'
  | real x =>
    cases hw
    exact .real _
  | var hname =>
    cases hw
    exact .negation (.var hname) trivial
  | negation h hbare =>
    cases hw
    exact h
  | pair hop hassociative hv hu =>
    cases hw
    exact .negation (.pair hop hassociative hv hu) trivial
  | chain hop hassociative hlength hvs hflat =>
    cases hw
    exact .negation (.chain hop hassociative hlength hvs hflat) trivial

theorem readNumber {text : String} (h : Value.readNumber text = .ok v) : IsBuilt known v := by
  obtain ⟨n, hn, rfl⟩ | ⟨x, rfl⟩ := readNumber_eq_ok h
  · exact .integer (fits_readInteger hn)
  · exact .real x

/-- **An operand that stands without parentheses binds tighter than its node,** unless it would have
been flattened. -/
theorem power_lt (hk : IsRepertoire known) (hop : known op) (h : IsBuilt known (node tag vs))
    (hparens : op.needsParens tag = false)
    (hflat : op.associative = true → Term.contribution op (node tag vs) = [node tag vs]) :
    op.power < tag.power := by
  have hle : op.power ≤ tag.power := by
    simp only [Operator.needsParens, Bool.or_eq_false_iff, decide_eq_false_iff_not] at hparens
    omega
  refine Nat.lt_of_le_of_ne hle fun heq => ?_
  simp only [Operator.needsParens, heq, Nat.lt_irrefl, decide_false, beq_self_eq_true,
    Bool.true_and, Bool.false_or, Bool.not_eq_false', Bool.and_eq_true, beq_iff_eq] at hparens
  obtain ⟨hassociative, hsymbol⟩ := hparens
  obtain rfl := hk.eq_of_symbol tag op h.known_tag hop hsymbol
  cases h with
  | pair _ hnot => exact Bool.false_ne_true (hnot.symm.trans hassociative)
  | chain _ _ hlength => exact contribution_ne_singleton hlength (hflat hassociative)

end IsBuilt

end Value

end Precedence
