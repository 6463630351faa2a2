import Precedence.Proofs.Calculator.Agreement
import Precedence.Proofs.Calculator.Trees
import Precedence.Proofs.Exact.Obtained

/-!
# Canonical values

The calculators return values in one form. `Value.IsComputed` are those that `arithmetic` returns:
numbers, with fractions in lowest terms that are not whole, and names with or without a minus sign.
`Value.IsProper` is what holds of a value that `algebra` returns and of everything inside of it.

* `IsComputed.apply`, `IsComputed.negate`: operations and minus signs preserve the form.
* `IsTree.of_occurs`, `IsTree.isProper`: whatever occurs in a tree is one, and is proper.
* `values_canonical`: so the values that the calculators return are in the form, at every depth.
-/

namespace Precedence

open Precedence.Number Calculator

namespace Exact

variable {x y z : Exact}

/-- An exact result is canonical. -/
theorem isCanonical_onExact {op : Operation} (hx : x.Proper) (hy : y.Proper)
    (h : x.onExact? op y = some (.ok z)) : z.IsCanonical := by
  cases op with
  | add => exact isCanonical_of_represented ((add_eq hx hy).symm.trans (Option.some.inj h))
  | subtract =>
    exact isCanonical_of_represented ((subtract_eq hx hy).symm.trans (Option.some.inj h))
  | multiply =>
    exact isCanonical_of_represented ((multiply_eq hx hy).symm.trans (Option.some.inj h))
  | divide => exact isCanonical_of_represented ((divide_eq hx hy).symm.trans (Option.some.inj h))
  | power =>
    cases y with
    | integer e => exact isCanonical_pow (Option.some.inj h)
    | rational q => cases h

end Exact

namespace Value

/-! ## Values that are computed -/

/-- A value as `arithmetic` returns it. -/
inductive IsComputed : Value → Prop where
  | integer {n : Int} (h : Fits n) : IsComputed (integer n)
  | real (x : Float) : IsComputed (real x)
  | rational {q : Rational} (h : q.IsReduced) (hwhole : 1 < q.denom) : IsComputed (rational q)
  | var (name : String) : IsComputed (var name)
  | negation (name : String) : IsComputed (negation (var name))

variable {a b c : Value} {x : Exact}

theorem isComputed_ofExact (h : x.IsCanonical) : IsComputed (ofExact x) := by
  cases x with
  | integer n => exact .integer h
  | rational q => exact .rational h.1 h.2

/-- An opposite is in the form again. -/
theorem IsComputed.negate (ha : IsComputed a) (h : a.negate = .ok b) : IsComputed b := by
  have hexact : ∀ x : Exact, x.IsCanonical → (ofExact x).negate = .ok b → IsComputed b := by
    intro x hx h
    rw [negate_ofExact, Exact.neg_eq hx] at h
    cases hz : represented Exact.ofRat (some (-x.toRat)) with
    | error e =>
      rw [hz] at h
      cases h
    | ok z =>
      rw [hz] at h
      cases h
      exact isComputed_ofExact (Exact.isCanonical_of_represented hz)
  cases ha with
  | @integer n hn => exact hexact (.integer n) hn h
  | real x =>
    cases h
    exact .real _
  | @rational q hq hwhole => exact hexact (.rational q) ⟨hq, hwhole⟩ h
  | var name =>
    cases h
    exact .negation name
  | negation name =>
    cases h
    exact .var name

/-- The number that a computed value is. -/
theorem IsComputed.of_numeric (ha : IsComputed a) {op : Operation} {n : Numeric}
    (h : a.numeric op = .ok n) :
    (∃ r, n = .real r) ∨ ∃ x : Exact, n = .exact x ∧ x.IsCanonical := by
  cases ha with
  | integer hn =>
    cases h
    exact .inr ⟨_, rfl, hn⟩
  | real x =>
    cases h
    exact .inl ⟨x, rfl⟩
  | rational hq hwhole =>
    cases h
    exact .inr ⟨_, rfl, hq, hwhole⟩
  | var name => cases h
  | negation name => cases h

/-- A result is in the form again. -/
theorem IsComputed.apply {op : Operation} (ha : IsComputed a) (hb : IsComputed b)
    (h : a.apply op b = .ok c) : IsComputed c := by
  unfold Value.apply at h
  obtain ⟨m, hm, h⟩ := bind_eq_ok h
  obtain ⟨n, hn, h⟩ := bind_eq_ok h
  obtain ⟨r, rfl⟩ | ⟨x, rfl, hx⟩ := ha.of_numeric hm
  · cases h
    exact .real _
  obtain ⟨r, rfl⟩ | ⟨y, rfl, hy⟩ := hb.of_numeric hn
  · cases h
    exact .real _
  rw [Numeric.apply] at h
  cases hr : x.onExact? op y with
  | none =>
    rw [hr] at h
    cases h
    exact .real _
  | some result =>
    rw [hr] at h
    cases result with
    | error e => cases h
    | ok z =>
      cases h
      exact isComputed_ofExact
        (Exact.isCanonical_onExact hx.isReduced.proper hy.isReduced.proper hr)

theorem isComputed_readNumber {text : String} (h : readNumber text = .ok a) : IsComputed a := by
  obtain ⟨n, hn, rfl⟩ | ⟨x, rfl⟩ := readNumber_eq_ok h
  · exact .integer (fits_readInteger hn)
  · exact .real x

/-! ## Values that are kept -/

/-- The value `u` is the value, or stands somewhere inside of it. -/
inductive Occurs (u : Value) : Value → Prop where
  | here : Occurs u u
  | negation {v : Value} (h : Occurs u v) : Occurs u (negation v)
  | operand {op : Operator} {v : Value} {vs : List Value} (hv : v ∈ vs) (h : Occurs u v) :
      Occurs u (node op vs)

/-- A sum or a product has two operands at least, and none of them is one of the same kind. A
difference, a quotient or a power has two. -/
def HasOperands (op : Operation) (vs : List Value) : Prop :=
  match op with
  | .add | .multiply =>
    2 ≤ vs.length ∧ ∀ tag us, node tag us ∈ vs → tag.sameKind op.operator = false
  | .subtract | .divide | .power => vs.length = 2

/-- The value is no fraction, negates nothing but a name or a node, and is a node only of one of the
five operators, with the operands that belong to it. -/
def IsProper : Value → Prop
  | integer _ | real _ | var _ => True
  | rational _ => False
  | negation inner => inner.IsBare
  | node tag vs => ∃ op : Operation, tag = op.operator ∧ HasOperands op vs

variable {u v w : Value}

/-- Whatever occurs in a tree is a tree. -/
theorem IsTree.of_occurs (hv : IsTree v) (h : Occurs u v) : IsTree u := by
  induction h with
  | here => exact hv
  | negation _ ih =>
    cases hv with
    | negation hinner _ => exact ih hinner
  | operand hmem _ ih =>
    cases hv with
    | pair _ hleft hright =>
      rcases List.mem_pair.mp hmem with rfl | rfl
      · exact ih hleft
      · exact ih hright
    | chain _ _ hvs _ => exact ih (hvs _ hmem)

/-- A value that gives only itself to nodes of an operator is no node of its kind. -/
theorem sameKind_eq_false_of_contribution {op tag : Operator} {us : List Value}
    (h : Term.contribution op (node tag us) = [node tag us]) : tag.sameKind op = false := by
  by_contra hk
  rw [contribution_node (by simpa using hk)] at h
  have hsize := congrArg sizeOf h
  simp only [List.cons.sizeOf_spec, node.sizeOf_spec] at hsize
  omega

theorem IsTree.isProper (h : IsTree v) : v.IsProper := by
  cases h with
  | integer _ => trivial
  | real _ => trivial
  | var _ => trivial
  | negation _ hbare => exact hbare
  | @pair op v w hop _ _ =>
    refine ⟨op, rfl, ?_⟩
    cases op with
    | add => cases hop
    | multiply => cases hop
    | subtract | divide | power => rfl
  | @chain op vs hop hlength _ hflat =>
    have hkinds : 2 ≤ vs.length ∧ ∀ tag us, node tag us ∈ vs → tag.sameKind op.operator = false :=
      ⟨hlength, fun tag us hmem => sameKind_eq_false_of_contribution (hflat _ hmem)⟩
    refine ⟨op, rfl, ?_⟩
    cases op with
    | add => exact hkinds
    | multiply => exact hkinds
    | subtract | divide | power => cases hop

end Value

namespace Calculator

namespace Phrase

open Value (IsComputed)

/-- **A phrase that is computed has a value in the form of computed values.** -/
theorem isComputed_value {N : Level} (e : Phrase N) {a : Value}
    (h : e.value computedAtOnce = some a) : IsComputed a := by
  refine e.of_value (P := IsComputed) ?_ ?_ ?_ (fun text _ => .var text) h
  · exact fun text v hv => Value.isComputed_readNumber hv
  · exact fun v w hv hw => hv.negate hw
  · exact fun op v w u hv hw hu => hv.apply hw (toOption_eq_some_iff.mp hu)

end Phrase

open Value (IsComputed Occurs IsProper)

/-- **The calculators return canonical values.** What `arithmetic` returns is in the form of
computed values, and whatever occurs in a value that `algebra` returns is proper. -/
theorem values_canonical (input : String) :
    (∀ a stats, evaluate input = some (.ok (a, stats)) → IsComputed a) ∧
    (∀ v stats, parseSymbolic input = some (.ok (v, stats)) → ∀ u, Occurs u v → IsProper u) := by
  constructor
  · intro a stats h
    rw [evaluate, ← Grammar.setMaxDepth_maxDepth arithmetic] at h
    obtain ⟨e, -, he, -, -⟩ := (Grammar.parse_eq_ok_iff_phrase (calculates_arithmetic _)).mp h
    exact e.isComputed_value he
  · intro v stats h u hu
    rw [parseSymbolic, ← Grammar.setMaxDepth_maxDepth algebra] at h
    obtain ⟨e, hterminals, he, -, -⟩ :=
      (Grammar.parse_eq_ok_iff_phrase (calculates_algebra _)).mp h
    have htree := e.isTree_value (fun text ht => isName_of_terminals hterminals ht) he
    exact (htree.of_occurs hu).isProper

/-- A sum below two signs, which goes into another sum. -/
theorem parseSymbolic_signedSum :
    parseSymbolic "--(a+b)+c" = some (.ok (.node Operation.add.operator
      [.var "a", .var "b", .var "c"], ⟨9, 6, 2, 5⟩)) := by
  let inner : Phrase .sum :=
    .added (.term (.factor (.plain (.name "a")))) (.factor (.plain (.name "b")))
  let e : Phrase .sum := .added (.term (.factor (.negated (.negated (.plain (.group inner))))))
    (.factor (.plain (.name "c")))
  have hterminals : Terminals (calculatorRecognizer.scan "--(a+b)+c") e.terminals :=
    ⟨by decide +kernel, by decide +kernel⟩
  have hstats : e.stats = ⟨9, 6, 2, 5⟩ := by decide +kernel
  rw [← hstats]
  exact parseSymbolic_of_phrase hterminals rfl (by decide +kernel)

theorem values_canonical_signedSum :
    IsComputed (.rational ⟨-3, 4⟩) ∧
      IsProper (.node Operation.add.operator [.var "a", .var "b", .var "c"]) :=
  ⟨(values_canonical "3/-2^2").1 _ _ evaluate_quotient,
    (values_canonical "--(a+b)+c").2 _ _ parseSymbolic_signedSum _ .here⟩

end Calculator

end Precedence
