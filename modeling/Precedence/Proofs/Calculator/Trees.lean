import Precedence.Proofs.Calculator.Repertoire

/-!
# Trees

The values that `algebra` makes. A sum or a product has no operand that is one itself, since it
would have been flattened; other nodes have two operands. Fractions and negations of numbers or of
negations do not occur.

* `IsTree.combine`, `IsTree.negate`: operations and minus signs make trees of trees.
* `isTree_value`: the value of a phrase is a tree.
-/

namespace Precedence

open Precedence.Number Calculator

theorem Operation.sameKind_operator {a b : Operation} :
    a.operator.sameKind b.operator = true ↔ a = b := by
  cases a <;> cases b <;> decide

namespace Value

/-! ## Real numbers -/

mutual

/-- Whether the value is a real number, or has one inside of it. -/
def hasReal : Value → Bool
  | real _ => true
  | negation inner => hasReal inner
  | node _ operands => anyHasReal operands
  | integer _ | rational _ | var _ => false

/-- Whether any of the values has a real number inside of it. -/
def anyHasReal : List Value → Bool
  | [] => false
  | v :: rest => hasReal v || anyHasReal rest

end

theorem hasReal_of_mem {vs : List Value} {v : Value} (h : anyHasReal vs = false) (hv : v ∈ vs) :
    v.hasReal = false := by
  induction vs with
  | nil => cases hv
  | cons w vs ih =>
    rw [anyHasReal, Bool.or_eq_false_iff] at h
    rcases List.mem_cons.mp hv with rfl | hv
    · exact h.1
    · exact ih h.2 hv

mutual

/-- Values that compare equal are equal, if no real number is in one of them. -/
theorem eq_of_same : ∀ v w : Value, w.hasReal = false → same v w = true → v = w
  | integer _, integer _, _, h => by rw [eq_of_beq h]
  | real _, real _, hreal, _ => by cases hreal
  | rational _, rational _, _, h => by rw [eq_of_beq h]
  | var _, var _, _, h => by rw [eq_of_beq h]
  | negation v, negation w, hreal, h => by rw [eq_of_same v w hreal h]
  | node _ vs, node _ ws, hreal, h => by
    obtain ⟨hop, hall⟩ := Bool.and_eq_true_iff.mp h
    rw [eq_of_beq hop, eq_of_sameAll vs ws hreal hall]

theorem eq_of_sameAll : ∀ vs ws : List Value, anyHasReal ws = false → sameAll vs ws = true →
    vs = ws
  | [], [], _, _ => rfl
  | v :: vs, w :: ws, hreal, h => by
    obtain ⟨hfirst, hrest⟩ := Bool.or_eq_false_iff.mp hreal
    obtain ⟨hv, hvs⟩ := Bool.and_eq_true_iff.mp h
    rw [eq_of_same v w hfirst hv, eq_of_sameAll vs ws hrest hvs]

end

/-! ## Trees -/

/-- A value as `algebra` makes it. -/
inductive IsTree : Value → Prop where
  | integer {n : Int} (h : Fits n) : IsTree (integer n)
  | real (x : Float) : IsTree (real x)
  | var {name : String} (h : IsName name) : IsTree (var name)
  | negation {v : Value} (h : IsTree v) (hbare : v.IsBare) : IsTree (negation v)
  | pair {op : Operation} {v w : Value} (hop : op.operator.associative = false) (hv : IsTree v)
      (hw : IsTree w) : IsTree (node op.operator [v, w])
  | chain {op : Operation} {vs : List Value} (hop : op.operator.associative = true)
      (hlength : 2 ≤ vs.length) (h : ∀ v ∈ vs, IsTree v)
      (hflat : ∀ v ∈ vs, Term.contribution op.operator v = [v]) : IsTree (node op.operator vs)

variable {op : Operation} {tag : Operator} {v w : Value} {vs : List Value}

/-- The operators of the calculators are told apart by their symbols. -/
theorem isRepertoire_operations :
    Operator.IsRepertoire fun tag => ∃ op : Operation, tag = op.operator where
  fixity := by
    rintro _ ⟨op, rfl⟩
    cases op <;> rfl
  eq_of_symbol := by
    rintro _ _ ⟨a, rfl⟩ ⟨b, rfl⟩
    cases a <;> cases b <;> decide
  rightPower := by
    rintro _ ⟨op, rfl⟩
    cases op <;> decide
  positive := by
    rintro _ ⟨op, rfl⟩
    cases op <;> decide

/-- Trees are built of the operators of the calculators. -/
theorem isTree_iff_isBuilt :
    IsTree v ↔ IsBuilt (fun tag => ∃ op : Operation, tag = op.operator) v := by
  constructor
  · intro h
    induction h with
    | integer hn => exact .integer hn
    | real x => exact .real x
    | var hname => exact .var hname
    | negation _ hbare ih => exact .negation ih hbare
    | pair hop _ _ ihv ihw => exact .pair ⟨_, rfl⟩ hop ihv ihw
    | chain hop hlength _ hflat ih => exact .chain ⟨_, rfl⟩ hop hlength ih hflat
  · intro h
    induction h with
    | integer hn => exact .integer hn
    | real x => exact .real x
    | var hname => exact .var hname
    | negation _ hbare ih => exact .negation ih hbare
    | pair hop hassociative _ _ ihv ihw =>
      obtain ⟨op, rfl⟩ := hop
      exact .pair hassociative ihv ihw
    | chain hop hassociative hlength _ hflat ih =>
      obtain ⟨op, rfl⟩ := hop
      exact .chain hassociative hlength ih hflat

/-- The tags of trees are the operators of the calculators. -/
theorem IsTree.exists_operator (h : IsTree (node tag vs)) :
    ∃ op : Operation, tag = op.operator :=
  (isTree_iff_isBuilt.mp h).known_tag

/-- What a tree gives to a sum or a product. -/
theorem IsTree.contribution (h : IsTree v) (hop : op.operator.associative = true) :
    Term.contribution op.operator v ≠ [] ∧ ∀ u ∈ Term.contribution op.operator v,
      IsTree u ∧ Term.contribution op.operator u = [u] := by
  simp only [isTree_iff_isBuilt] at h ⊢
  exact h.contribution isRepertoire_operations ⟨op, rfl⟩ hop

/-- A sum or a product of trees is tagged with its own operator. -/
theorem IsTree.combine_eq_node (hv : IsTree v) (hop : op.operator.associative = true) (w : Value) :
    Term.combine op.operator v w = node op.operator
      (Term.contribution op.operator v ++ Term.contribution op.operator w) :=
  (isTree_iff_isBuilt.mp hv).combine_eq_node isRepertoire_operations ⟨op, rfl⟩ hop w

/-- An operation makes a tree of trees. -/
theorem IsTree.combine (op : Operation) (hv : IsTree v) (hw : IsTree w) :
    IsTree (Term.combine op.operator v w) := by
  rw [isTree_iff_isBuilt] at hv hw ⊢
  exact hv.combine isRepertoire_operations ⟨op, rfl⟩ hw

/-- The opposite of a tree is a tree. -/
theorem IsTree.negate (h : IsTree v) (hw : v.negate = .ok w) : IsTree w := by
  rw [isTree_iff_isBuilt] at h ⊢
  exact h.negate hw

theorem isTree_readNumber {text : String} (h : readNumber text = .ok v) : IsTree v :=
  isTree_iff_isBuilt.mpr (.readNumber h)

end Value

namespace Calculator.Phrase

open Value

/-- **A phrase whose operations are kept has a tree as its value.** -/
theorem isTree_value {N : Level} (e : Phrase N)
    (hname : ∀ text, .name text ∈ e.terminals → IsName text) {w : Value}
    (h : e.value kept = some w) : IsTree w := by
  refine e.of_value (P := IsTree) ?_ ?_ ?_ (fun text ht => .var (hname text ht)) h
  · exact fun text v hv => isTree_readNumber hv
  · exact fun v w hv hw => hv.negate hw
  · rintro op v w _ hv hw ⟨⟩
    exact hv.combine op hw

end Calculator.Phrase

end Precedence
