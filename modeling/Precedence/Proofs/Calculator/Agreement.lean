import Precedence.Proofs.Calculator.Recognition
import Precedence.Proofs.Value.Rationals
import Precedence.Proofs.Value.Shapes

/-!
# The calculators agree

What `arithmetic` computes is what the value that `algebra` keeps stands for. Both read the same
phrase, and `Agrees` relates the two values of a phrase, one operation at a time.

* `Agrees.apply`, `Agrees.negate`: operations and minus signs keep the values in agreement.
* `algebra_of_evaluate`: so a text that can be computed is kept by `algebra` with the same
  statistics, and its value stands for the exact number that was computed.
-/

namespace Precedence

open Calculator

namespace Value

/-- The value `a` was computed and `w` was kept of one phrase. -/
inductive Agrees : Value → Value → Prop where
  | exact {x : Exact} {w : Value} (proper : x.Proper) (reads : w.rational? = some x.toRat)
      (integer : ∀ n, w = .integer n → x = .integer n) : Agrees (ofExact x) w
  | real (r : Float) {w : Value} (integer : ∀ n, w ≠ .integer n) : Agrees (.real r) w
  | var (name : String) : Agrees (.var name) (.var name)
  | negation (name : String) : Agrees (.negation (.var name)) (.negation (.var name))

variable {a b c v w : Value} {x y z : Exact}

theorem asExact?_ofExact (x : Exact) : (ofExact x).asExact? = some x := by
  cases x <;> rfl

/-- An exact number that was computed is what was kept stands for. -/
theorem Agrees.rational?_eq (h : Agrees a w) (hx : a.asExact? = some x) :
    w.rational? = some x.toRat := by
  cases h with
  | @exact y _ hy hread hi =>
    rw [asExact?_ofExact] at hx
    cases hx
    exact hread
  | real r hi => cases hx
  | var name => cases hx
  | negation name => cases hx

theorem Agrees.eq_of_var {name : String} (h : Agrees (.var name) w) : w = .var name := by
  generalize ha : Value.var name = a at h
  cases h with
  | @exact y _ hy hread hi => cases y <;> cases ha
  | real r hi => cases ha
  | var name => rfl
  | negation name => cases ha

theorem Agrees.eq_of_negation {inner : Value} (h : Agrees (.negation inner) w) :
    w = .negation inner := by
  generalize ha : Value.negation inner = a at h
  cases h with
  | @exact y _ hy hread hi => cases y <;> cases ha
  | real r hi => cases ha
  | var name => cases ha
  | negation name => rfl

/-! ## Minus signs -/

theorem negate_ofExact (x : Exact) : (ofExact x).negate = x.neg.map ofExact := by
  cases x with
  | integer n =>
    rw [ofExact, negate, Exact.neg]
    cases narrow (-n) <;> rfl
  | rational q =>
    rw [ofExact, negate, Exact.neg]
    cases q.neg <;> rfl

/-- A number that stands for another one has an opposite that stands for its opposite. -/
theorem rational?_negate (hw : w.IsSymbolic) (hv : w.negate = .ok v) {p : ℚ}
    (hp : w.rational? = some p) : v.rational? = some (-p) := by
  cases w with
  | integer n =>
    obtain ⟨-, rfl⟩ := negate_integer_eq_ok hv
    cases hp
    simp [rational?]
  | real r => cases hp
  | rational q => exact hw.elim
  | negation inner =>
    cases hv
    rw [rational?] at hp
    obtain ⟨q, hq, rfl⟩ := Option.map_eq_some_iff.mp hp
    rw [hq, neg_neg]
  | var name => cases hp
  | node op operands =>
    cases hv
    rw [rational?, hp]
    rfl

/-- Any symbolic value but an integer can be negated. -/
theorem exists_negate (hw : w.IsSymbolic) (h : ∀ n, w ≠ .integer n) :
    ∃ v, w.negate = .ok v ∧ ∀ n, v ≠ .integer n := by
  cases w with
  | integer n => exact absurd rfl (h n)
  | real r => exact ⟨_, rfl, fun n h => (by cases h)⟩
  | rational q => exact hw.elim
  | negation inner =>
    refine ⟨inner, rfl, ?_⟩
    rintro n rfl
    exact hw.elim
  | var name => exact ⟨_, rfl, fun n h => (by cases h)⟩
  | node op operands => exact ⟨_, rfl, fun n h => (by cases h)⟩

/-- **Where what was computed can be negated, what was kept can be negated**, and they agree. -/
theorem Agrees.negate (h : Agrees a w) (hw : w.IsSymbolic) (ha : a.negate = .ok b) :
    ∃ v, w.negate = .ok v ∧ Agrees b v := by
  cases h with
  | @exact x _ hx hread hi =>
    rw [negate_ofExact] at ha
    cases hneg : x.neg with
    | error e =>
      rw [hneg] at ha
      cases ha
    | ok z =>
      rw [hneg] at ha
      cases ha
      obtain ⟨hz, hzr⟩ := Exact.neg_finds hx z hneg
      by_cases hint : ∃ n, w = .integer n
      · obtain ⟨n, rfl⟩ := hint
        rw [hi n rfl] at hneg
        have hv : (Value.integer n).negate = .ok (ofExact z) := by
          rw [show Value.integer n = ofExact (.integer n) from rfl, negate_ofExact, hneg]
          rfl
        refine ⟨_, hv, .exact hz (by rw [hzr]; exact rational?_negate hw hv hread) ?_⟩
        intro m hm
        cases z with
        | integer k => exact congrArg Exact.integer (Value.integer.inj hm)
        | rational q => cases hm
      · obtain ⟨v, hv, hne⟩ := exists_negate hw fun n hn => hint ⟨n, hn⟩
        refine ⟨v, hv, .exact hz (by rw [hzr]; exact rational?_negate hw hv hread) ?_⟩
        exact fun n hn => absurd hn (hne n)
  | real r hi =>
    cases ha
    obtain ⟨v, hv, hne⟩ := exists_negate hw hi
    exact ⟨v, hv, .real _ hne⟩
  | var name =>
    cases ha
    exact ⟨_, rfl, .negation name⟩
  | negation name =>
    cases ha
    exact ⟨_, rfl, .var name⟩

/-! ## Operations -/

/-- An exact result is that of the operation on the numbers of the operands. -/
theorem onExact_finds {op : Operation} (hx : x.Proper) (hy : y.Proper)
    (h : x.onExact? op y = some (.ok z)) :
    z.Proper ∧ op.onRationals? x.toRat y.toRat = some z.toRat := by
  cases op with
  | add =>
    obtain ⟨hz, hr⟩ := Exact.add_finds hx hy z (Option.some.inj h)
    exact ⟨hz, by rw [hr]; rfl⟩
  | subtract =>
    obtain ⟨hz, hr⟩ := Exact.subtract_finds hx hy z (Option.some.inj h)
    exact ⟨hz, by rw [hr]; rfl⟩
  | multiply =>
    obtain ⟨hz, hr⟩ := Exact.multiply_finds hx hy z (Option.some.inj h)
    exact ⟨hz, by rw [hr]; rfl⟩
  | divide =>
    obtain ⟨hne, hz, hr⟩ := Exact.divide_finds hx hy (Option.some.inj h)
    exact ⟨hz, by rw [hr, Operation.onRationals?, if_neg hne]⟩
  | power =>
    cases y with
    | integer e =>
      obtain ⟨hne, hz, hr⟩ := Exact.pow_finds hx (Option.some.inj h)
      refine ⟨hz, ?_⟩
      rw [hr, Operation.onRationals?, Operator.powerOf?, Exact.toRat, if_pos, Rat.num_intCast]
      exact ⟨Rat.den_intCast e, fun he => hne (by exact_mod_cast he)⟩
    | rational q => cases h

theorem numeric_ofExact (op : Operation) (x : Exact) :
    (ofExact x).numeric op = .ok (.exact x) := by
  cases x <;> rfl

/-- **Where an operation on what was computed has a result, to keep it agrees with the result.** -/
theorem Agrees.apply {op : Operation} (ha : Agrees a v) (hb : Agrees b w)
    (h : a.apply op b = .ok c) : Agrees c (Term.combine op.operator v w) := by
  have hnode : ∀ n, Term.combine op.operator v w ≠ .integer n := by
    intro n hn
    have hbare := isBare_combine op.operator v w
    rw [hn] at hbare
    exact hbare
  unfold Value.apply at h
  obtain ⟨p, hp, h⟩ := bind_eq_ok h
  obtain ⟨q, hq, h⟩ := bind_eq_ok h
  cases ha with
  | var name => cases hp
  | negation name => cases hp
  | real r hi =>
    cases hp
    cases h
    exact .real _ hnode
  | @exact x _ hx hv hi =>
    rw [numeric_ofExact] at hp
    cases hp
    cases hb with
    | var name => cases hq
    | negation name => cases hq
    | real r hi =>
      cases hq
      cases h
      exact .real _ hnode
    | @exact y _ hy hw hi' =>
      rw [numeric_ofExact] at hq
      cases hq
      rw [Numeric.apply] at h
      cases hr : x.onExact? op y with
      | none =>
        rw [hr] at h
        cases h
        exact .real _ hnode
      | some result =>
        rw [hr] at h
        cases result with
        | error e => cases h
        | ok z =>
          cases h
          obtain ⟨hz, hreads⟩ := onExact_finds hx hy hr
          refine .exact hz ?_ fun n hn => absurd hn (hnode n)
          rw [rational?_combine op hv hw, hreads]

end Value

namespace Calculator

namespace Phrase

open Value (Agrees)

/-- A phrase whose operations are kept has a symbolic value. -/
theorem isSymbolic_value {N : Level} (e : Phrase N) {w : Value} (h : e.value kept = some w) :
    w.IsSymbolic := by
  refine e.of_value (P := Value.IsSymbolic) ?_ ?_ ?_ (fun _ _ => trivial) h
  · intro text v hv
    rcases Value.readNumber_eq_ok hv with ⟨n, -, rfl⟩ | ⟨x, rfl⟩
    · trivial
    · trivial
  · exact fun v w hv hw => hv.negate hw
  · rintro op v w _ _ _ ⟨⟩
    exact (Value.isBare_combine _ _ _).isSymbolic

/-- A literal agrees with itself. -/
theorem agrees_of_readNumber {text : String} {a : Value}
    (h : (Value.readNumber text).toOption = some a) : Agrees a a := by
  rcases Value.readNumber_eq_ok (toOption_eq_some_iff.mp h) with ⟨n, -, rfl⟩ | ⟨x, rfl⟩
  · exact .exact (x := .integer n) trivial rfl fun m hm => congrArg Exact.integer (by cases hm; rfl)
  · exact .real x fun n hn => (by cases hn)

/-- **The two values of a phrase agree.** -/
theorem agrees_value {N : Level} (e : Phrase N) {a : Value}
    (h : e.value computedAtOnce = some a) : ∃ w, e.value kept = some w ∧ Agrees a w := by
  induction e using inductionOn generalizing a with
  | number text => exact ⟨a, h, agrees_of_readNumber h⟩
  | name text =>
    cases h
    exact ⟨_, rfl, .var text⟩
  | negated u ih =>
    obtain ⟨text, hliteral, hread⟩ | ⟨hliteral, b, hb, h⟩ := value_negated_eq_some_iff.mp h
    · exact ⟨a, value_negated_eq_some_iff.mpr (.inl ⟨text, hliteral, hread⟩),
        agrees_of_readNumber (toOption_eq_some_iff.mpr hread)⟩
    · obtain ⟨w, hw, hagrees⟩ := ih hb
      obtain ⟨v, hv, hagrees'⟩ := hagrees.negate (u.isSymbolic_value hw) h
      exact ⟨v, value_negated_eq_some_iff.mpr (.inr ⟨hliteral, w, hw, hv⟩), hagrees'⟩
  | group e ih => exact ih h
  | plain a ih => exact ih h
  | factor u ih => exact ih h
  | term t ih => exact ih h
  | applied op a b iha ihb =>
    obtain ⟨x, y, hx, hy, h⟩ := value_applied_eq_some_iff.mp h
    obtain ⟨v, hv, hxv⟩ := iha hx
    obtain ⟨w, hw, hyw⟩ := ihb hy
    exact ⟨Term.combine op.operator v w, value_applied_eq_some_iff.mpr ⟨v, w, hv, hw, rfl⟩,
      hxv.apply hyw (toOption_eq_some_iff.mp h)⟩

end Phrase

/-- **The calculators agree.** A text that can be computed is kept by `algebra`, with the same
statistics. An exact number that was computed is what the value that is kept stands for; a name or
the negation of one is that value. -/
theorem algebra_of_evaluate {input : String} {a : Value} {stats : Stats}
    (h : evaluate input = some (.ok (a, stats))) :
    ∃ w, parseSymbolic input = some (.ok (w, stats)) ∧
      (∀ x, a.asExact? = some x → w.rational? = some x.toRat) ∧
      ((∃ name, a = .var name) ∨ (∃ inner, a = .negation inner) → w = a) := by
  rw [evaluate, ← Grammar.setMaxDepth_maxDepth arithmetic] at h
  obtain ⟨e, hterminals, he, hd, rfl⟩ :=
    (Grammar.parse_eq_ok_iff_phrase (calculates_arithmetic _)).mp h
  obtain ⟨w, hw, hagrees⟩ := e.agrees_value he
  have hdepth : arithmetic.maxDepth = algebra.maxDepth := by decide +kernel
  rw [Grammar.maxDepth_setMaxDepth, hdepth] at hd
  refine ⟨w, ?_, ?_, ?_⟩
  · rw [parseSymbolic, ← Grammar.setMaxDepth_maxDepth algebra]
    refine (Grammar.parse_eq_ok_iff_phrase (calculates_algebra _)).mpr
      ⟨e, hterminals, hw, ?_, rfl⟩
    rw [Grammar.maxDepth_setMaxDepth]
    exact hd
  · intro x hx
    exact hagrees.rational?_eq hx
  · rintro (⟨name, rfl⟩ | ⟨inner, rfl⟩)
    · exact hagrees.eq_of_var
    · exact hagrees.eq_of_negation

theorem evaluate_quotient :
    evaluate "3/-2^2" = some (.ok (.rational ⟨-3, 4⟩, ⟨6, 3, 2, 3⟩)) := by
  let e : Phrase .sum := .term (.divided (.factor (.plain (.number "3")))
    (.negated (.raised (.number "2") (.plain (.number "2")))))
  rw [evaluate, ← Grammar.setMaxDepth_maxDepth arithmetic]
  refine (Grammar.parse_eq_ok_iff_phrase (calculates_arithmetic _)).mpr ⟨e, ?_, ?_, ?_, rfl⟩
  · exact ⟨by decide +kernel, by decide +kernel⟩
  · rfl
  · rw [Grammar.maxDepth_setMaxDepth]
    decide +kernel

theorem algebra_of_evaluate_quotient :
    ∃ w, evaluate "3/-2^2" = some (.ok (.rational ⟨-3, 4⟩, ⟨6, 3, 2, 3⟩)) ∧
      parseSymbolic "3/-2^2" = some (.ok (w, ⟨6, 3, 2, 3⟩)) ∧
      w.rational? = some (Rational.toRat ⟨-3, 4⟩) := by
  obtain ⟨w, hw, hexact, -⟩ := algebra_of_evaluate evaluate_quotient
  exact ⟨w, evaluate_quotient, hw, hexact (.rational ⟨-3, 4⟩) rfl⟩

end Calculator

end Precedence
